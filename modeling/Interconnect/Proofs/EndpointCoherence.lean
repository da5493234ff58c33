import Interconnect.Proofs.History
import Interconnect.Proofs.Representation

/-! # Coherence of endpoints

What the parts of an endpoint have to do with each other. The symbols fill a beat, the
signals that are there are those that the flags and the mode ask for, and every computed
width is the least that will do. A registry has only such endpoints, whatever happened to
it and to the parameters.
-/

namespace Interconnect

open Parameter (Environment Table)

namespace Endpoint

/-- A signal is missing in the mode without it and in no other; one that is tied off is
there. -/
structure Handshake.Coherent (h : Handshake) : Prop where
  valid : h.valid = none ↔ h.mode = some .noValid
  ready : h.ready = none ↔ h.mode = some .noReady
  oneSignal : h.valid.isSome ∨ h.ready.isSome
  validTerminated : h.validTerminated → h.valid.isSome
  readyTerminated : h.readyTerminated → h.ready.isSome

/-- Packets in use have a start and an end, and an empty count when it is asked for and a
beat has several symbols. -/
structure Packets.Coherent (symbols : UInt64) (p : Packets) : Prop where
  startOfPacket : p.startOfPacket.isSome ↔ p.usePackets.value
  endOfPacket : p.endOfPacket.isSome ↔ p.usePackets.value
  empty : p.empty.isSome ↔
    p.usePackets.value ∧ (∃ u ∈ p.useEmpty, u.value = true) ∧ 1 < symbols.toNat
  emptyWidth : ∀ s ∈ p.empty,
    IsLeast {w : Nat | symbols.toNat ≤ 2 ^ w} s.width.toNat ∧
      1 ≤ s.width.toNat ∧ s.width.toNat ≤ 64

/-- A channel in use has a signal, wide enough for the largest number. -/
structure Channel.Coherent (c : Channel) : Prop where
  signal : c.signal.isSome ↔ c.useChannel.value
  signalWidth : ∀ s ∈ c.signal, ∃ max ∈ c.maxChannel,
    IsLeast {w : Nat | 1 ≤ w ∧ max.value.toNat < 2 ^ w} s.width.toNat ∧ s.width.toNat ≤ 64

/-- An endpoint and its declaration: the parts that are declared are there, and agree. -/
structure Coherent (d : Declaration) (e : Endpoint) : Prop where
  dataWidth : 1 ≤ e.dataWidth.value.toNat
  symbolWidth : 1 ≤ e.symbolWidth.value.toNat
  symbolsPerBeat :
    e.symbolsPerBeat.toNat * e.symbolWidth.value.toNat = e.dataWidth.value.toNat
  handshake : e.handshake.Coherent
  packets : Option.Rel (fun _ p => p.Coherent e.symbolsPerBeat) d.packets e.packets
  channel : Option.Rel (fun _ c => c.Coherent) d.channel e.channel

/-- A width of zero is refused as such, before anything is divided by it. -/
structure RefusesZero (env : Environment) (direction : Direction) (d : Declaration) : Prop where
  dataWidth : ∀ w, Resolved.number env d.name "data width" d.data.width = .ok w → w.value = 0 →
    resolve env direction d = .error (.invalidWidth d.name "data width" w.render)
  symbolWidth : ∀ w raw s, Resolved.number env d.name "data width" d.data.width = .ok w →
    w.value ≠ 0 → d.data.symbolWidth = some raw →
    Resolved.number env d.name "symbol width" raw = .ok s → s.value = 0 →
    resolve env direction d = .error (.invalidWidth d.name "symbol width" s.render)

variable {env : Environment} {base : String} {direction : Direction}

theorem Handshake.coherent_ofMode (base : String) (mode : Option Mode) (key : Option String) :
    (ofMode base mode key).Coherent where
  valid := by simp [ofMode]
  ready := by simp [ofMode]
  oneSignal := by
    by_cases h : mode = some .noValid
    · exact Or.inr (by simp [ofMode, h])
    · exact Or.inl (by simp [ofMode, h])
  validTerminated := by
    intro h
    have hmode : mode = some .noFeed := of_decide_eq_true h
    simp [ofMode, hmode]
  readyTerminated := by
    intro h
    have hmode : mode = some .noBackpressure := of_decide_eq_true h
    simp [ofMode, hmode]

theorem Handshake.Resolves.coherent {name : Option String} {h : Handshake}
    (hr : Handshake.Resolves env base name h) : h.Coherent := by
  cases hr <;> exact coherent_ofMode ..

theorem Packets.coherent_ofFlags (base : String) (symbols : UInt64)
    (usePackets : Resolved Bool) (useEmpty : Option (Resolved Bool)) :
    (ofFlags base symbols usePackets useEmpty).Coherent symbols where
  startOfPacket := by simp [ofFlags]
  endOfPacket := by simp [ofFlags]
  empty := by
    cases useEmpty <;> simp [ofFlags, UInt64.lt_iff_toNat_lt, and_assoc]
  emptyWidth := by
    intro s hs
    simp only [ofFlags, Option.mem_def, Option.ite_none_right_eq_some, Bool.and_eq_true,
      decide_eq_true_eq, Option.some.injEq] at hs
    obtain ⟨⟨-, hsymbols⟩, rfl⟩ := hs
    exact ⟨Width.isLeast_ofCount symbols,
      Width.one_le_ofCount (UInt64.lt_iff_toNat_lt.mp hsymbols), Width.ofCount_le symbols⟩

theorem Packets.Resolves.coherent {symbols : UInt64} {d : PacketDeclaration} {p : Packets}
    (h : Packets.Resolves env base symbols d p) : p.Coherent symbols := by
  cases h
  exact coherent_ofFlags ..

/-- The special case of the small channel numbers is a lower bound. -/
theorem Channel.toNat_width (limit : UInt64) :
    (width limit).toNat = max 1 (Width.ofValue limit).toNat := by
  unfold width
  split
  next h =>
    have hlimit : 1 < limit.toNat := UInt64.lt_iff_toNat_lt.mp h
    have hpos : ¬ (Width.ofValue limit).toNat ≤ 0 := by
      rw [Width.ofValue_le_iff]
      omega
    omega
  next h =>
    have hlimit : limit.toNat ≤ 1 := UInt64.le_iff_toNat_le.mp (UInt64.not_lt.mp h)
    have hle : (Width.ofValue limit).toNat ≤ 1 := by
      rw [Width.ofValue_le_iff]
      omega
    exact (Nat.max_eq_left hle).symm

theorem Channel.isLeast_width (limit : UInt64) :
    IsLeast {w : Nat | 1 ≤ w ∧ limit.toNat < 2 ^ w} (width limit).toNat := by
  rw [toNat_width]
  exact Width.isLeast_max_one fun _ => Width.ofValue_le_iff

theorem Channel.width_le (limit : UInt64) : (width limit).toNat ≤ 64 := by
  rw [toNat_width]
  exact Nat.max_le.mpr ⟨by decide, Width.ofValue_le limit⟩

theorem Channel.Resolves.coherent {d : ChannelDeclaration} {c : Channel}
    (h : Channel.Resolves env base d c) : c.Coherent := by
  cases h with
  | @used _ _ limit _ hv _ _ =>
    refine ⟨by simp [hv], fun s hs => ?_⟩
    obtain rfl := Option.some.inj hs
    exact ⟨limit, rfl, isLeast_width limit.value, width_le limit.value⟩
  | unused _ hv _ => exact ⟨by simp [hv], nofun⟩

theorem SymbolWidth.value_ne_zero {dataWidth r : Resolved UInt64} {raw : Option Scalar}
    (h : SymbolWidth env dataWidth raw r) (hw : dataWidth.value ≠ 0) : r.value ≠ 0 := by
  cases h with
  | declared _ hr => exact hr
  | absent => exact hw

theorem Resolves.coherent {d : Declaration} {e : Endpoint} (h : Resolves env direction d e) :
    e.Coherent d := by
  obtain ⟨-, hw, hs, hd, hh, hp, hc, -⟩ := h
  constructor
  case dataWidth => exact value_ne_zero_iff.mp hw
  case symbolWidth => exact value_ne_zero_iff.mp (hs.value_ne_zero hw)
  case symbolsPerBeat =>
    rw [UInt64.toNat_div]
    exact Nat.div_mul_cancel (mod_eq_zero_iff.mp hd)
  case handshake => exact hh.coherent
  case packets => exact optionRel_imp hp fun _ _ h => h.coherent
  case channel => exact optionRel_imp hc fun _ _ h => h.coherent

theorem refusesZero (env : Environment) (direction : Direction) (d : Declaration) :
    RefusesZero env direction d where
  dataWidth := by
    intro w hw hzero
    simp [resolve, hw, Resolved.positive, hzero, bind, Except.bind]
  symbolWidth := by
    intro w raw s hw hpos hraw hs hzero
    simp [resolve, resolveSymbolWidth, hw, hraw, hs, Resolved.positive, hpos, hzero, bind,
      Except.bind]

/-- The declaration of an endpoint of the direction. -/
def Direction.declare : Direction → Declaration → Point.Declaration
  | sink, d => .sink d
  | source, d => .source d

end Endpoint

theorem Point.Declaration.mem_blueprints_endpoint_iff {d : Declaration}
    {direction : Endpoint.Direction} {d' : Endpoint.Declaration} :
    .endpoint direction d' ∈ d.blueprints ↔ d = direction.declare d' := by
  cases d <;> cases direction <;> simp [blueprints, Endpoint.Direction.declare, eq_comm]

namespace Registry

variable {r : Registry} {ds : List Point.Declaration} {ts : List Table} {name : String}

/-- The endpoints of a registry are coherent, and come from the declarations. The widths of
their signals are found under their names, and no others. -/
structure EndpointsCoherent (ds : List Point.Declaration) (r : Registry) : Prop where
  entry : ∀ name d e, (name, .endpoint d e) ∈ r.entries →
    e.name = name ∧ e.direction.declare d ∈ ds ∧ e.Coherent d
  emptyWidth : ∀ name w, r.emptyWidth? name = some w ↔
    ∃ d e p s, (name, .endpoint d e) ∈ r.entries ∧ e.packets = some p ∧ p.empty = some s ∧
      s.width = w
  channelWidth : ∀ name w, r.channelWidth? name = some w ↔
    ∃ d e c s, (name, .endpoint d e) ∈ r.entries ∧ e.channel = some c ∧ c.signal = some s ∧
      s.width = w

theorem Reached.exists_endpoint_resolves (h : Reached r ds ts) {d : Endpoint.Declaration}
    {e : Endpoint} (he : (name, .endpoint d e) ∈ r.entries) :
    e.name = name ∧ e.direction.declare d ∈ ds ∧
      ∃ t ∈ ts, Endpoint.Resolves t.environment e.direction d e := by
  obtain ⟨t, ht, d', hd', b, hb, hr, hname⟩ := h.sourced _ he
  cases hr with
  | endpoint hr =>
    rw [Point.Declaration.mem_blueprints_endpoint_iff] at hb
    subst hb
    have hr' := hr
    cases hr
    exact ⟨hname, hd', t, ht, hr'⟩

theorem bind_endpoint?_eq_some_iff {α : Type} (h : r.keys.Nodup) {f : Endpoint → Option α}
    {x : α} :
    ((r.get? name).bind fun p => p.record.endpoint?.bind f) = some x ↔
      ∃ d e, (name, .endpoint d e) ∈ r.entries ∧ f e = some x := by
  simp only [Option.bind_eq_some_iff, Dictionary.get?_eq_some_iff h]
  constructor
  · rintro ⟨p, hp, e, he, hf⟩
    cases p <;> cases he
    exact ⟨_, _, hp, hf⟩
  · rintro ⟨d, e, hp, hf⟩
    exact ⟨_, hp, e, rfl, hf⟩

theorem Reached.coherentEndpoints (h : Reached r ds ts) : EndpointsCoherent ds r := by
  constructor
  case entry =>
    intro name d e he
    obtain ⟨hname, hd, t, -, hr⟩ := h.exists_endpoint_resolves he
    exact ⟨hname, hd, hr.coherent⟩
  case emptyWidth =>
    intro name w
    rw [emptyWidth?, bind_endpoint?_eq_some_iff h.nodup_keys]
    simp [Endpoint.emptyWidth?, Option.bind_eq_some_iff, Option.map_eq_some_iff]
  case channelWidth =>
    intro name w
    rw [channelWidth?, bind_endpoint?_eq_some_iff h.nodup_keys]
    simp [Endpoint.channelWidth?, Option.bind_eq_some_iff, Option.map_eq_some_iff]

/-- Whatever happens to a registry, its endpoints are coherent, and no width of zero is ever
divided by. -/
theorem Reached.endpointsCoherent (h : Reached r ds ts) :
    EndpointsCoherent ds r ∧
      ∀ (t : Table) direction d, Endpoint.RefusesZero t.environment direction d :=
  ⟨h.coherentEndpoints, fun t => Endpoint.refusesZero t.environment⟩

/-- A source of packets over several channels. -/
def exampleSource : Endpoint.Declaration where
  name := "Out"
  clock := "Clk"
  reset := "Reset"
  data := { name := "Q", width := .text "WIDTH", symbolWidth := some (.text "SYMBOL") }
  packets := some { usePackets := .text "PACKETS", useEmpty := some (.number 1) }
  channel := some { useChannel := .flag true, maxChannel := some (.text "CHANNELS") }

/-- The parameters of the source. -/
def sourceTable (width symbol channels : UInt64) : Table :=
  Point.exampleTable
    [ Showcase.natural "WIDTH" width, Showcase.natural "SYMBOL" symbol,
      Showcase.flag "PACKETS" true, Showcase.natural "CHANNELS" channels ]

/-- The source is registered, and refreshed for more symbols and channels. A second
declaration of it is refused, and so is an elaboration with symbols of no bits. -/
def sourceRun : Registry :=
  let registered := (register {} (sourceTable 24 8 1).environment (.source exampleSource)).state
  let refreshed := (registered.refresh (sourceTable 72 8 256).environment).state
  let again := (refreshed.register (sourceTable 8 8 3).environment (.source exampleSource)).state
  (again.elaborate (sourceTable 8 0 3)).state.1

theorem endpointsCoherent_sourceRun :
    ∃ ts, Reached sourceRun [.source exampleSource] ts ∧
      EndpointsCoherent [.source exampleSource] sourceRun ∧
      sourceRun.emptyWidth? "Out" = some 4 ∧ sourceRun.channelWidth? "Out" = some 9 :=
  have reached : Reached sourceRun [.source exampleSource] _ :=
    .elaborate (.refuse (.refresh (.accept (t := sourceTable 24 8 1) .empty rfl)) rfl)
  ⟨_, reached, reached.endpointsCoherent.1, rfl, rfl⟩

end Registry

theorem Session.endpointsCoherent_run (t : Table) (os : List Operation) :
    ((start t).run os).points.EndpointsCoherent ((start t).accepted os) := by
  obtain ⟨_, h⟩ := exists_reached_run t os
  exact h.coherentEndpoints

end Interconnect
