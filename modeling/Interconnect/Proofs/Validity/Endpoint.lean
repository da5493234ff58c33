import Interconnect.Proofs.Endpoint
import Interconnect.Proofs.Validity.Field

/-! # Valid endpoints

The data width is positive and a multiple of the symbol width, a channel in use has a largest
number, and the handshake is a mode, or a parameter that holds one or waits for the host.
-/

namespace Interconnect

open Parameter (Table Value)

namespace Endpoint

open Reference (exists_denotes_ofNumber_iff exists_denotes_ofFlag_iff)

variable {t : Table} {base : String} {direction : Direction}

/-- A handshake is a mode by its name, or names a parameter that holds the name of a mode or
waits for the host. -/
inductive Handshake.Valid (t : Table) : Option String → Prop where
  | absent : Valid t none
  | mode {name : String} (mode : Mode) : Text.upper name = Text.upper mode.render →
      Valid t (some name)
  | parameter {name text : String} {p : Parameter} (mode : Mode) : t.get? name = some p →
      p.value = .text text → Text.upper text = Text.upper mode.render → Valid t (some name)
  | pending {name : String} {p : Parameter} : t.get? name = some p → p.derived = true →
      p.supplied = false → Valid t (some name)

/-- The data width is positive and a multiple of the symbol width. -/
def DataDeclaration.WidthsValid (t : Table) (d : DataDeclaration) : Prop :=
  ∃ width, d.width.Counts t width ∧ 0 < width ∧
    ∀ raw ∈ d.symbolWidth, ∃ symbolWidth, raw.Counts t symbolWidth ∧ 0 < symbolWidth ∧
      symbolWidth ∣ width

structure PacketDeclaration.Valid (t : Table) (d : PacketDeclaration) : Prop where
  usePackets : d.usePackets.IsFlag t
  useEmpty : ∀ raw ∈ d.useEmpty, raw.IsFlag t

/-- A channel in use needs a largest number. -/
structure ChannelDeclaration.Valid (t : Table) (d : ChannelDeclaration) : Prop where
  useChannel : ∃ used, d.useChannel.Switches t used ∧ (used = true → d.maxChannel.isSome)
  maxChannel : ∀ raw ∈ d.maxChannel, raw.IsNumber t

structure Declaration.Valid (t : Table) (d : Declaration) : Prop where
  widths : d.data.WidthsValid t
  handshake : Handshake.Valid t d.data.handshake
  packets : ∀ p ∈ d.packets, p.Valid t
  channel : ∀ c ∈ d.channel, c.Valid t
  error : ∀ e ∈ d.error, e.width.IsNumber t

theorem Handshake.exists_resolves_iff {name : Option String} :
    (∃ h, Handshake.Resolves t.environment base name h) ↔ Handshake.Valid t name := by
  constructor
  · rintro ⟨_, _ | hm | ⟨-, hp, hv⟩ | ⟨-, hp, -, hd, hs⟩⟩
    · exact .absent
    · exact .mode _ (Mode.ofName?_eq_some_iff.mp hm)
    · obtain ⟨p, hget, rfl⟩ := Option.map_eq_some_iff.mp hp
      obtain ⟨text, ht, hn⟩ := Option.bind_eq_some_iff.mp hv
      exact .parameter _ hget (Value.text?_eq_some_iff.mp ht) (Mode.ofName?_eq_some_iff.mp hn)
    · obtain ⟨p, hget, rfl⟩ := Option.map_eq_some_iff.mp hp
      exact .pending hget hd hs
  · intro h
    cases name with
    | none => exact ⟨_, .absent⟩
    | some name =>
      -- A name that is the name of a mode is never looked up.
      cases hm : Mode.ofName? name with
      | some mode => exact ⟨_, .literal hm⟩
      | none =>
        have hnone {mode : Mode} : Text.upper name ≠ Text.upper mode.render := by
          intro he
          rw [Mode.ofName?_eq_some_iff.mpr he] at hm
          cases hm
        cases h with
        | mode mode he => exact absurd he hnone
        | parameter mode hget hv hn =>
          have hp : t.environment name = some _ := Option.map_eq_some_iff.mpr ⟨_, hget, rfl⟩
          exact ⟨_, .symbol hm hp (Option.bind_eq_some_iff.mpr
            ⟨_, Value.text?_eq_some_iff.mpr hv, Mode.ofName?_eq_some_iff.mpr hn⟩)⟩
        | @pending _ p hget hd hs =>
          have hp : t.environment name = some _ := Option.map_eq_some_iff.mpr ⟨_, hget, rfl⟩
          cases hv : p.value.text?.bind Mode.ofName? with
          | some mode => exact ⟨_, .symbol hm hp hv⟩
          | none => exact ⟨_, .pending hm hp hv hd hs⟩

theorem SymbolWidth.exists_iff {dataWidth : Resolved UInt64} {raw : Option Scalar}
    (h : 0 < dataWidth.value.toNat) :
    (∃ r, SymbolWidth t.environment dataWidth raw r ∧ dataWidth.value % r.value = 0) ↔
      ∀ s ∈ raw, ∃ n, s.Counts t n ∧ 0 < n ∧ n ∣ dataWidth.value.toNat := by
  simp only [mod_eq_zero_iff]
  constructor
  · rintro ⟨r, hr | _, hd⟩
    · rintro _ ⟨⟩
      exact ⟨_, Scalar.counts_iff.mpr ⟨r, ‹_›, rfl⟩, Nat.pos_of_dvd_of_pos hd h, hd⟩
    · exact nofun
  · intro hs
    cases raw with
    | none => exact ⟨_, .absent, Nat.dvd_refl _⟩
    | some raw =>
      obtain ⟨_, hn, hpos, hd⟩ := hs raw rfl
      obtain ⟨r, hr, rfl⟩ := Scalar.counts_iff.mp hn
      exact ⟨r, .declared hr (value_ne_zero_iff.mpr hpos), hd⟩

theorem Packets.exists_resolves_iff {symbols : UInt64} {d : PacketDeclaration} :
    (∃ p, Packets.Resolves t.environment base symbols d p) ↔ d.Valid t := by
  have hempty := exists_optionRel_iff (a := d.useEmpty) (@exists_denotes_ofFlag_iff t)
  constructor
  · rintro ⟨_, hu, he⟩
    exact ⟨exists_denotes_ofFlag_iff.mp ⟨_, hu⟩, hempty.mp ⟨_, he⟩⟩
  · rintro ⟨hu, he⟩
    obtain ⟨_, hu⟩ := exists_denotes_ofFlag_iff.mpr hu
    obtain ⟨_, he⟩ := hempty.mpr he
    exact ⟨_, .intro hu he⟩

theorem Channel.exists_resolves_iff {d : ChannelDeclaration} :
    (∃ c, Channel.Resolves t.environment base d c) ↔ d.Valid t := by
  have hmax := exists_optionRel_iff (a := d.maxChannel) (@exists_denotes_ofNumber_iff t)
  constructor
  · rintro ⟨_, ⟨hu, hy, hm, hr⟩ | ⟨hu, hn, hr⟩⟩
    · refine ⟨⟨_, Scalar.switches_iff.mpr ⟨_, hu, rfl⟩, fun _ => by simp [hm]⟩, fun raw hraw => ?_⟩
      obtain rfl := Option.some.inj (hm.symm.trans hraw)
      exact exists_denotes_ofNumber_iff.mp ⟨_, hr⟩
    · refine ⟨⟨_, Scalar.switches_iff.mpr ⟨_, hu, rfl⟩, fun hy => ?_⟩, hmax.mp ⟨_, hr⟩⟩
      rw [hn] at hy
      cases hy
  · rintro ⟨⟨_, hused, hm⟩, hr⟩
    obtain ⟨u, hu, rfl⟩ := Scalar.switches_iff.mp hused
    cases hused : u.value with
    | true =>
      obtain ⟨raw, hraw⟩ := Option.isSome_iff_exists.mp (hm hused)
      obtain ⟨_, hr⟩ := exists_denotes_ofNumber_iff.mpr (hr raw hraw)
      exact ⟨_, .used hu hused hraw hr⟩
    | false =>
      obtain ⟨_, hr⟩ := hmax.mpr hr
      exact ⟨_, .unused hu hused hr⟩

theorem ErrorSignal.exists_resolves_iff {d : ErrorDeclaration} :
    (∃ e, ErrorSignal.Resolves t.environment base d e) ↔ d.width.IsNumber t := by
  rw [← exists_denotes_ofNumber_iff]
  exact ⟨fun ⟨_, ⟨h⟩⟩ => ⟨_, h⟩, fun ⟨_, h⟩ => ⟨_, .intro h⟩⟩

theorem exists_resolves_iff {d : Declaration} :
    (∃ e, Resolves t.environment direction d e) ↔ d.Valid t := by
  have hpackets (symbols : UInt64) := exists_optionRel_iff (a := d.packets)
    (@Packets.exists_resolves_iff t d.data.name symbols)
  have hchannel := exists_optionRel_iff (a := d.channel)
    (@Channel.exists_resolves_iff t d.data.name)
  have herror := exists_optionRel_iff (a := d.error)
    (@ErrorSignal.exists_resolves_iff t d.data.name)
  constructor
  · rintro ⟨_, ⟨hw, hp, hs, hd, hh, hpk, hc, he⟩⟩
    have hpos := value_ne_zero_iff.mp hp
    constructor
    case widths =>
      have hsymbol := (SymbolWidth.exists_iff hpos).mp ⟨_, hs, hd⟩
      exact ⟨_, Scalar.counts_iff.mpr ⟨_, hw, rfl⟩, hpos, hsymbol⟩
    case handshake => exact Handshake.exists_resolves_iff.mp ⟨_, hh⟩
    case packets => exact (hpackets _).mp ⟨_, hpk⟩
    case channel => exact hchannel.mp ⟨_, hc⟩
    case error => exact herror.mp ⟨_, he⟩
  · rintro ⟨⟨_, hwidth, hpos, hs⟩, hh, hpk, hc, he⟩
    obtain ⟨dataWidth, hw, rfl⟩ := Scalar.counts_iff.mp hwidth
    obtain ⟨symbolWidth, hs, hd⟩ := (SymbolWidth.exists_iff hpos).mpr hs
    obtain ⟨_, hh⟩ := Handshake.exists_resolves_iff.mpr hh
    obtain ⟨_, hpk⟩ := (hpackets (dataWidth.value / symbolWidth.value)).mpr hpk
    obtain ⟨_, hc⟩ := hchannel.mpr hc
    obtain ⟨_, he⟩ := herror.mpr he
    exact ⟨_, .intro hw (value_ne_zero_iff.mpr hpos) hs hd hh hpk hc he⟩

end Endpoint

end Interconnect
