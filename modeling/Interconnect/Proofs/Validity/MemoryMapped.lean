import Interconnect.Proofs.MemoryMapped
import Interconnect.Proofs.Validity.Field

/-! # Valid memory-mapped interfaces

The address has a name, the data width is positive, and with byte enables the data divides into
symbols. What only a slave reads counts only for a slave.
-/

namespace Interconnect

open Parameter (Table)

namespace MemoryMapped

open Reference (exists_denotes_ofNumber_iff exists_denotes_numberOr_iff
  exists_denotes_flagOr_iff)

variable {t : Table} {role : Role}

structure AddressDeclaration.Valid (t : Table) (d : AddressDeclaration) : Prop where
  name : ∃ c ∈ d.name.toList, Text.isBlank c = false
  width : d.width.IsNumber t

structure BurstDeclaration.Valid (t : Table) (d : BurstDeclaration) : Prop where
  maxCount : d.maxCount.IsNumber t
  width : ∀ raw ∈ d.width, raw.IsNumber t
  onBoundariesOnly : ∀ raw ∈ d.onBoundariesOnly, raw.IsFlag t
  lineWrap : ∀ raw ∈ d.lineWrap, raw.IsFlag t

/-- With byte enables the data width is a multiple of the symbol width, and the number of
symbols fits in 32 bits. -/
structure WriteDeclaration.Valid (t : Table) (dataWidth : Nat) (d : WriteDeclaration) : Prop where
  symbolWidth : ∃ symbolWidth, Scalar.CountsOr t 8 d.symbolWidth symbolWidth ∧
    (d.byteEnable.isSome → 0 < symbolWidth ∧ symbolWidth ∣ dataWidth ∧
      dataWidth / symbolWidth < 2 ^ 32)
  waitTime : ∀ raw ∈ d.waitTime, raw.IsNumber t
  holdTime : ∀ raw ∈ d.holdTime, raw.IsNumber t

structure ReadDeclaration.Valid (t : Table) (d : ReadDeclaration) : Prop where
  maxPending : ∀ raw ∈ d.maxPending, raw.IsNumber t
  waitTime : ∀ raw ∈ d.waitTime, raw.IsNumber t
  latency : ∀ raw ∈ d.latency, raw.IsNumber t

/-- The bridging flag of a master is not read. -/
structure Declaration.Valid (t : Table) (role : Role) (d : Declaration) : Prop where
  address : ∀ a ∈ d.address, a.Valid t
  burst : ∀ b ∈ d.burst, b.Valid t
  widths : ∃ dataWidth, Scalar.CountsOr t 32 d.dataWidth dataWidth ∧ 0 < dataWidth ∧
    ∀ w ∈ d.write, w.Valid t dataWidth
  read : ∀ r ∈ d.read, r.Valid t
  setupTime : ∀ raw ∈ d.setupTime, raw.IsNumber t
  bridging : role = .slave → ∀ raw ∈ d.bridgesToMaster, raw.IsFlag t

theorem Address.exists_resolves_iff {d : AddressDeclaration} :
    (∃ a, Address.Resolves t.environment d a) ↔ d.Valid t := by
  have hname : Text.isBlankText d.name = false ↔ ∃ c ∈ d.name.toList, Text.isBlank c = false := by
    simp [Text.isBlankText]
  constructor
  · rintro ⟨_, hn, hw⟩
    exact ⟨hname.mp hn, exists_denotes_ofNumber_iff.mp ⟨_, hw⟩⟩
  · rintro ⟨hn, hw⟩
    obtain ⟨_, hw⟩ := exists_denotes_ofNumber_iff.mpr hw
    exact ⟨_, .intro (hname.mpr hn) hw⟩

theorem Burst.exists_resolves_iff {d : BurstDeclaration} :
    (∃ b, Burst.Resolves t.environment d b) ↔ d.Valid t := by
  constructor
  · rintro ⟨_, hm, hw, hb, hl⟩
    exact ⟨exists_denotes_ofNumber_iff.mp ⟨_, hm⟩, exists_denotes_numberOr_iff.mp ⟨_, hw⟩,
      exists_denotes_flagOr_iff.mp ⟨_, hb⟩, exists_denotes_flagOr_iff.mp ⟨_, hl⟩⟩
  · rintro ⟨hm, hw, hb, hl⟩
    obtain ⟨m, hm⟩ := exists_denotes_ofNumber_iff.mpr hm
    obtain ⟨_, hw⟩ := exists_denotes_numberOr_iff.mpr hw
    obtain ⟨_, hb⟩ := exists_denotes_flagOr_iff.mpr hb
    obtain ⟨_, hl⟩ := exists_denotes_flagOr_iff.mpr hl
    exact ⟨_, .intro hm hw hb hl⟩

theorem WriteSide.exists_byteEnables_iff {dataWidth symbolWidth : UInt64} {name : String} :
    (∃ s, ByteEnables dataWidth symbolWidth name s) ↔
      0 < symbolWidth.toNat ∧ symbolWidth.toNat ∣ dataWidth.toNat ∧
        dataWidth.toNat / symbolWidth.toNat < 2 ^ 32 := by
  rw [← value_ne_zero_iff, ← mod_eq_zero_iff, ← UInt64.toNat_div]
  exact ⟨fun ⟨_, ⟨hp, hd, hc⟩⟩ => ⟨hp, hd, hc⟩, fun ⟨hp, hd, hc⟩ => ⟨_, .intro hp hd hc⟩⟩

theorem WriteSide.exists_resolves_iff {dataWidth : UInt64} {d : WriteDeclaration} :
    (∃ w, WriteSide.Resolves t.environment dataWidth d w) ↔ d.Valid t dataWidth.toNat := by
  have henables (symbolWidth : UInt64) := exists_optionRel_iff (a := d.byteEnable)
    (@exists_byteEnables_iff dataWidth symbolWidth)
  constructor
  · rintro ⟨_, hs, hb, hw, hh⟩
    constructor
    case symbolWidth =>
      refine ⟨_, (Scalar.countsOr_iff _).mpr ⟨_, hs, rfl⟩, fun he => ?_⟩
      obtain ⟨name, he⟩ := Option.isSome_iff_exists.mp he
      exact (henables _).mp ⟨_, hb⟩ name he
    case waitTime => exact exists_denotes_numberOr_iff.mp ⟨_, hw⟩
    case holdTime => exact exists_denotes_numberOr_iff.mp ⟨_, hh⟩
  · rintro ⟨⟨_, hwidth, hb⟩, hw, hh⟩
    obtain ⟨symbolWidth, hs, rfl⟩ := (Scalar.countsOr_iff defaultSymbolWidth).mp hwidth
    obtain ⟨_, hb⟩ := (henables symbolWidth.value).mpr fun name he =>
      hb (Option.isSome_iff_exists.mpr ⟨name, he⟩)
    obtain ⟨_, hw⟩ := exists_denotes_numberOr_iff.mpr hw
    obtain ⟨_, hh⟩ := exists_denotes_numberOr_iff.mpr hh
    exact ⟨_, .intro hs hb hw hh⟩

theorem ReadSide.exists_resolves_iff {d : ReadDeclaration} :
    (∃ r, ReadSide.Resolves t.environment d r) ↔ d.Valid t := by
  constructor
  · rintro ⟨_, hp, hw, hl⟩
    exact ⟨exists_denotes_numberOr_iff.mp ⟨_, hp⟩,
      exists_denotes_numberOr_iff.mp ⟨_, hw⟩,
      exists_denotes_numberOr_iff.mp ⟨_, hl⟩⟩
  · rintro ⟨hp, hw, hl⟩
    obtain ⟨_, hp⟩ := exists_denotes_numberOr_iff.mpr hp
    obtain ⟨_, hw⟩ := exists_denotes_numberOr_iff.mpr hw
    obtain ⟨_, hl⟩ := exists_denotes_numberOr_iff.mpr hl
    exact ⟨_, .intro hp hw hl⟩

theorem exists_bridging_iff {raw : Option Scalar} :
    (∃ r, Bridging t.environment raw role r) ↔ (role = .slave → ∀ s ∈ raw, s.IsFlag t) := by
  cases role with
  | slave =>
    constructor
    · rintro ⟨_, ⟨h⟩⟩ -; exact exists_denotes_flagOr_iff.mp ⟨_, h⟩
    · intro h
      obtain ⟨_, h⟩ := exists_denotes_flagOr_iff.mpr (h rfl)
      exact ⟨_, .slave h⟩
  | master => exact iff_of_true ⟨_, .master⟩ nofun

theorem exists_resolves_iff {d : Declaration} :
    (∃ m, Resolves t.environment role d m) ↔ d.Valid t role := by
  have haddress := exists_optionRel_iff (a := d.address) (@Address.exists_resolves_iff t)
  have hburst := exists_optionRel_iff (a := d.burst) (@Burst.exists_resolves_iff t)
  have hwrite (dataWidth : UInt64) := exists_optionRel_iff (a := d.write)
    (@WriteSide.exists_resolves_iff t dataWidth)
  have hread := exists_optionRel_iff (a := d.read) (@ReadSide.exists_resolves_iff t)
  constructor
  · rintro ⟨_, ⟨ha, hb, hd, hp, hw, hr, hs, hm⟩⟩
    constructor
    case address => exact haddress.mp ⟨_, ha⟩
    case burst => exact hburst.mp ⟨_, hb⟩
    case widths =>
      have hdata := (Scalar.countsOr_iff defaultDataWidth).mpr ⟨_, hd, rfl⟩
      exact ⟨_, hdata, value_ne_zero_iff.mp hp, (hwrite _).mp ⟨_, hw⟩⟩
    case read => exact hread.mp ⟨_, hr⟩
    case setupTime => exact exists_denotes_numberOr_iff.mp ⟨_, hs⟩
    case bridging => exact exists_bridging_iff.mp ⟨_, hm⟩
  · rintro ⟨ha, hb, ⟨_, hwidth, hp, hw⟩, hr, hs, hm⟩
    obtain ⟨dataWidth, hd, rfl⟩ := (Scalar.countsOr_iff defaultDataWidth).mp hwidth
    obtain ⟨_, ha⟩ := haddress.mpr ha
    obtain ⟨_, hb⟩ := hburst.mpr hb
    obtain ⟨_, hw⟩ := (hwrite dataWidth.value).mpr hw
    obtain ⟨_, hr⟩ := hread.mpr hr
    obtain ⟨_, hs⟩ := exists_denotes_numberOr_iff.mpr hs
    obtain ⟨_, hm⟩ := exists_bridging_iff.mpr hm
    exact ⟨_, .intro ha hb hd (value_ne_zero_iff.mpr hp) hw hr hs hm⟩

end MemoryMapped

end Interconnect
