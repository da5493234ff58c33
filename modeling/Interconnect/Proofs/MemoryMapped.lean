import Interconnect.Point.MemoryMapped
import Interconnect.Proofs.Endpoint
import Interconnect.Proofs.Width

/-! # How memory-mapped interfaces resolve

The rules by which the parts of a memory-mapped interface resolve under the parameters.
Resolution succeeds exactly by these rules, and reads no parameter but those of the
symbolic fields. A burst width that is not declared is computed from the largest count:
it is the number of bits that index so many values, and at least one.
-/

namespace Interconnect.MemoryMapped

open Parameter (Environment Value)
open Reference (ofNumber numberOr flagOr)
open Endpoint (optionally optionally_eq_ok_iff optionally_congr)

variable {env env' : Environment} {point : String} {role : Role}

inductive Address.Resolves (env : Environment) (d : AddressDeclaration) : Address → Prop where
  | intro {width : Resolved UInt64} : Text.isBlankText d.name = false →
      (ofNumber d.width).Denotes env Value.natural? width → Resolves env d ⟨d.name, width⟩

inductive Burst.Resolves (env : Environment) (d : BurstDeclaration) : Burst → Prop where
  | intro {maxCount width : Resolved UInt64} {onBoundariesOnly lineWrap : Resolved Bool} :
      (ofNumber d.maxCount).Denotes env Value.natural? maxCount →
      (numberOr (computedWidth maxCount.value) d.width).Denotes env Value.natural? width →
      (flagOr false d.onBoundariesOnly).Denotes env Value.boolean? onBoundariesOnly →
      (flagOr false d.lineWrap).Denotes env Value.boolean? lineWrap →
      Resolves env d ⟨d.name, maxCount, width, onBoundariesOnly, lineWrap⟩

/-- There is one enable for each symbol of a word, and not more than 32 bits can count. -/
inductive WriteSide.ByteEnables (dataWidth symbolWidth : UInt64) (name : String) :
    Signal → Prop where
  | intro : symbolWidth ≠ 0 → dataWidth % symbolWidth = 0 →
      (dataWidth / symbolWidth).toNat < UInt32.size →
      ByteEnables dataWidth symbolWidth name ⟨name, (dataWidth / symbolWidth).toUInt32⟩

inductive WriteSide.Resolves (env : Environment) (dataWidth : UInt64) (d : WriteDeclaration) :
    WriteSide → Prop where
  | intro {symbolWidth waitTime holdTime : Resolved UInt64} {byteEnable : Option Signal} :
      (numberOr defaultSymbolWidth d.symbolWidth).Denotes env Value.natural? symbolWidth →
      Option.Rel (ByteEnables dataWidth symbolWidth.value) d.byteEnable byteEnable →
      (numberOr 0 d.waitTime).Denotes env Value.natural? waitTime →
      (numberOr 0 d.holdTime).Denotes env Value.natural? holdTime →
      Resolves env dataWidth d ⟨d.data, d.strobe, symbolWidth, byteEnable, waitTime, holdTime⟩

inductive ReadSide.Resolves (env : Environment) (d : ReadDeclaration) : ReadSide → Prop where
  | intro {maxPending waitTime latency : Resolved UInt64} :
      (numberOr 0 d.maxPending).Denotes env Value.natural? maxPending →
      (numberOr defaultReadWaitTime d.waitTime).Denotes env Value.natural? waitTime →
      (numberOr 0 d.latency).Denotes env Value.natural? latency →
      Resolves env d ⟨d.strobe, d.data, maxPending, waitTime, latency⟩

inductive Bridging (env : Environment) (raw : Option Scalar) :
    Role → Option (Resolved Bool) → Prop where
  | slave {r : Resolved Bool} : (flagOr false raw).Denotes env Value.boolean? r →
      Bridging env raw .slave (some r)
  | master : Bridging env raw .master none

/-- The interface that a declaration resolves to: the data width is positive, and every
part resolves. -/
inductive Resolves (env : Environment) (role : Role) (d : Declaration) : MemoryMapped → Prop where
  | intro {address : Option Address} {burst : Option Burst} {write : Option WriteSide}
      {read : Option ReadSide} {dataWidth setupTime : Resolved UInt64}
      {bridgesToMaster : Option (Resolved Bool)} :
      Option.Rel (Address.Resolves env) d.address address →
      Option.Rel (Burst.Resolves env) d.burst burst →
      (numberOr defaultDataWidth d.dataWidth).Denotes env Value.natural? dataWidth →
      dataWidth.value ≠ 0 →
      Option.Rel (WriteSide.Resolves env dataWidth.value) d.write write →
      Option.Rel (ReadSide.Resolves env) d.read read →
      (numberOr 0 d.setupTime).Denotes env Value.natural? setupTime →
      Bridging env d.bridgesToMaster role bridgesToMaster →
      Resolves env role d
        { name := d.name, role, clock := d.clock, reset := d.reset, address, burst, dataWidth
          write, read, waitRequest := d.waitRequest, readDataValid := d.readDataValid
          setupTime, bridgesToMaster }

theorem Address.resolve_eq_ok_iff {d : AddressDeclaration} {a : Address} :
    Address.resolve env point d = .ok a ↔ Address.Resolves env d a := by
  unfold Address.resolve
  split
  next hb =>
    constructor
    · intro h; cases h
    · rintro ⟨hn, -⟩; exact absurd hb (Bool.eq_false_iff.mp hn)
  next hn =>
    simp only [bind_eq_ok_iff, Resolved.orElse_natural?_eq_ok_iff, Except.ok.injEq]
    constructor
    · rintro ⟨_, h, rfl⟩; exact .intro (Bool.eq_false_iff.mpr hn) h
    · rintro ⟨-, h⟩; exact ⟨_, h, rfl⟩

theorem Burst.resolve_eq_ok_iff {d : BurstDeclaration} {b : Burst} :
    Burst.resolve env point d = .ok b ↔ Burst.Resolves env d b := by
  simp only [Burst.resolve, bind_eq_ok_iff, Resolved.number_eq_ok_iff,
    Resolved.natural_eq_ok_iff, Resolved.flag_eq_ok_iff, Except.ok.injEq]
  constructor
  · rintro ⟨_, hm, _, hw, _, hb, _, hl, rfl⟩; exact .intro hm hw hb hl
  · rintro ⟨hm, hw, hb, hl⟩; exact ⟨_, hm, _, hw, _, hb, _, hl, rfl⟩

theorem WriteSide.byteEnables_eq_ok_iff {dataWidth : UInt64} {symbolWidth : Resolved UInt64}
    {name : String} {s : Signal} :
    byteEnables point dataWidth symbolWidth name = .ok s ↔
      ByteEnables dataWidth symbolWidth.value name s := by
  simp only [byteEnables, bind_eq_ok_iff, Resolved.positive_eq_ok_iff, symbolCount_eq_ok_iff]
  constructor
  · rintro ⟨_, ⟨hp, rfl⟩, _, ⟨hd, rfl⟩, h⟩
    split at h
    next hc => cases h; exact .intro hp hd hc
    · cases h
  · rintro ⟨hp, hd, hc⟩
    exact ⟨_, ⟨hp, rfl⟩, _, ⟨hd, rfl⟩, if_pos hc⟩

theorem WriteSide.resolve_eq_ok_iff {dataWidth : UInt64} {d : WriteDeclaration} {w : WriteSide} :
    WriteSide.resolve env point dataWidth d = .ok w ↔ WriteSide.Resolves env dataWidth d w := by
  simp only [WriteSide.resolve, bind_eq_ok_iff, Resolved.natural_eq_ok_iff,
    optionally_eq_ok_iff, byteEnables_eq_ok_iff, Except.ok.injEq]
  constructor
  · rintro ⟨_, hs, _, hb, _, hw, _, hh, rfl⟩; exact .intro hs hb hw hh
  · rintro ⟨hs, hb, hw, hh⟩; exact ⟨_, hs, _, hb, _, hw, _, hh, rfl⟩

theorem ReadSide.resolve_eq_ok_iff {d : ReadDeclaration} {r : ReadSide} :
    ReadSide.resolve env point d = .ok r ↔ ReadSide.Resolves env d r := by
  simp only [ReadSide.resolve, bind_eq_ok_iff, Resolved.natural_eq_ok_iff, Except.ok.injEq]
  constructor
  · rintro ⟨_, hp, _, hw, _, hl, rfl⟩; exact .intro hp hw hl
  · rintro ⟨hp, hw, hl⟩; exact ⟨_, hp, _, hw, _, hl, rfl⟩

theorem bridging_eq_ok_iff {raw : Option Scalar} {r : Option (Resolved Bool)} :
    bridging env point raw role = .ok r ↔ Bridging env raw role r := by
  cases role with
  | slave =>
    simp only [bridging, map_eq_ok_iff, Resolved.flag_eq_ok_iff]
    constructor
    · rintro ⟨_, h, rfl⟩; exact .slave h
    · rintro ⟨h⟩; exact ⟨_, h, rfl⟩
  | master =>
    constructor
    · intro h; cases h; exact .master
    · rintro ⟨⟩; rfl

theorem resolve_eq_ok_iff {d : Declaration} {m : MemoryMapped} :
    resolve env role d = .ok m ↔ Resolves env role d m := by
  simp only [resolve, bind_eq_ok_iff, optionally_eq_ok_iff, Address.resolve_eq_ok_iff,
    Burst.resolve_eq_ok_iff, Resolved.natural_eq_ok_iff, Resolved.positive_eq_ok_iff,
    WriteSide.resolve_eq_ok_iff, ReadSide.resolve_eq_ok_iff, bridging_eq_ok_iff,
    Except.ok.injEq]
  constructor
  · rintro ⟨_, ha, _, hb, _, hd, _, ⟨hp, rfl⟩, _, hw, _, hr, _, hs, _, hm, rfl⟩
    exact .intro ha hb hd hp hw hr hs hm
  · rintro ⟨ha, hb, hd, hp, hw, hr, hs, hm⟩
    exact ⟨_, ha, _, hb, _, hd, _, ⟨hp, rfl⟩, _, hw, _, hr, _, hs, _, hm, rfl⟩

def BurstDeclaration.symbols (d : BurstDeclaration) : List (String × String) :=
  (ofNumber d.maxCount).symbols "max burst count"
    ++ (numberOr 0 d.width).symbols "burst width"
    ++ (flagOr false d.onBoundariesOnly).symbols "burst on boundaries only"
    ++ (flagOr false d.lineWrap).symbols "line wrap bursts"

def WriteDeclaration.symbols (d : WriteDeclaration) : List (String × String) :=
  (numberOr defaultSymbolWidth d.symbolWidth).symbols "symbol width"
    ++ (numberOr 0 d.waitTime).symbols "write wait time"
    ++ (numberOr 0 d.holdTime).symbols "hold time"

def ReadDeclaration.symbols (d : ReadDeclaration) : List (String × String) :=
  (numberOr 0 d.maxPending).symbols "max pending reads"
    ++ (numberOr defaultReadWaitTime d.waitTime).symbols "read wait time"
    ++ (numberOr 0 d.latency).symbols "read latency"

/-- The bridging flag is a field of a slave only. -/
def Role.symbols (raw : Option Scalar) : Role → List (String × String)
  | .slave => (flagOr false raw).symbols "bridges to master"
  | .master => []

/-- The fields of a declaration that name a parameter, in order. -/
def Declaration.symbols (role : Role) (d : Declaration) : List (String × String) :=
  d.address.toList.flatMap (fun a => (ofNumber a.width).symbols "address width")
    ++ d.burst.toList.flatMap BurstDeclaration.symbols
    ++ (numberOr defaultDataWidth d.dataWidth).symbols "data width"
    ++ d.write.toList.flatMap WriteDeclaration.symbols
    ++ d.read.toList.flatMap ReadDeclaration.symbols
    ++ (numberOr 0 d.setupTime).symbols "setup time"
    ++ role.symbols d.bridgesToMaster

theorem Address.Resolves.symbolic_eq {d : AddressDeclaration} {a : Address}
    (h : Address.Resolves env d a) :
    a.width.symbolic "address width" = (ofNumber d.width).symbols "address width" := by
  cases h with
  | intro _ h => exact h.symbolic_eq

theorem Burst.Resolves.symbolic_eq {d : BurstDeclaration} {b : Burst}
    (h : Burst.Resolves env d b) :
    b.maxCount.symbolic "max burst count" ++ b.width.symbolic "burst width"
      ++ b.onBoundariesOnly.symbolic "burst on boundaries only"
      ++ b.lineWrap.symbolic "line wrap bursts" = d.symbols := by
  obtain ⟨hm, hw, hb, hl⟩ := h
  rw [BurstDeclaration.symbols, hm.symbolic_eq, hw.symbolic_eq, hb.symbolic_eq, hl.symbolic_eq,
    Reference.symbols_numberOr]

theorem WriteSide.Resolves.symbolic_eq {dataWidth : UInt64} {d : WriteDeclaration} {w : WriteSide}
    (h : WriteSide.Resolves env dataWidth d w) :
    w.symbolWidth.symbolic "symbol width" ++ w.waitTime.symbolic "write wait time"
      ++ w.holdTime.symbolic "hold time" = d.symbols := by
  obtain ⟨hs, -, hw, hh⟩ := h
  rw [WriteDeclaration.symbols, hs.symbolic_eq, hw.symbolic_eq, hh.symbolic_eq]

theorem ReadSide.Resolves.symbolic_eq {d : ReadDeclaration} {r : ReadSide}
    (h : ReadSide.Resolves env d r) :
    r.maxPending.symbolic "max pending reads" ++ r.waitTime.symbolic "read wait time"
      ++ r.latency.symbolic "read latency" = d.symbols := by
  obtain ⟨hp, hw, hl⟩ := h
  rw [ReadDeclaration.symbols, hp.symbolic_eq, hw.symbolic_eq, hl.symbolic_eq]

theorem Bridging.symbolic_eq {raw : Option Scalar} {r : Option (Resolved Bool)}
    (h : Bridging env raw role r) :
    r.toList.flatMap (·.symbolic "bridges to master") = role.symbols raw := by
  cases h with
  | slave h => simp [h.symbolic_eq, Role.symbols]
  | master => rfl

theorem Resolves.symbolicFields_eq {d : Declaration} {m : MemoryMapped}
    (h : Resolves env role d m) : m.symbolicFields = d.symbols role := by
  obtain ⟨ha, hb, hd, -, hw, hr, hs, hm⟩ := h
  simp only [symbolicFields, Declaration.symbols, hd.symbolic_eq, hs.symbolic_eq, hm.symbolic_eq,
    flatMap_eq_of_forall₂ (forall₂_toList ha) fun _ _ h => h.symbolic_eq,
    flatMap_eq_of_forall₂ (forall₂_toList hb) fun _ _ h => h.symbolic_eq,
    flatMap_eq_of_forall₂ (forall₂_toList hw) fun _ _ h => h.symbolic_eq,
    flatMap_eq_of_forall₂ (forall₂_toList hr) fun _ _ h => h.symbolic_eq]

theorem Address.resolve_congr {d : AddressDeclaration}
    (h : AgreeOn ((ofNumber d.width).symbols "address width") env env') :
    Address.resolve env point d = Address.resolve env' point d := by
  simp only [Address.resolve, Resolved.natural?_congr h]

theorem Burst.resolve_congr {d : BurstDeclaration} (h : AgreeOn d.symbols env env') :
    Burst.resolve env point d = Burst.resolve env' point d := by
  simp only [BurstDeclaration.symbols, agreeOn_append] at h
  obtain ⟨⟨⟨hm, hw⟩, hb⟩, hl⟩ := h
  have hwidth : ∀ default, Resolved.natural env point "burst width" d.width default
      = Resolved.natural env' point "burst width" d.width default :=
    fun _ => Resolved.natural_congr (Reference.symbols_numberOr ▸ hw)
  simp only [Burst.resolve, Resolved.number_congr hm, hwidth, Resolved.flag_congr hb,
    Resolved.flag_congr hl]

theorem WriteSide.resolve_congr {dataWidth : UInt64} {d : WriteDeclaration}
    (h : AgreeOn d.symbols env env') :
    WriteSide.resolve env point dataWidth d = WriteSide.resolve env' point dataWidth d := by
  simp only [WriteDeclaration.symbols, agreeOn_append] at h
  obtain ⟨⟨hs, hw⟩, hh⟩ := h
  simp only [WriteSide.resolve, Resolved.natural_congr hs, Resolved.natural_congr hw,
    Resolved.natural_congr hh]

theorem ReadSide.resolve_congr {d : ReadDeclaration} (h : AgreeOn d.symbols env env') :
    ReadSide.resolve env point d = ReadSide.resolve env' point d := by
  simp only [ReadDeclaration.symbols, agreeOn_append] at h
  obtain ⟨⟨hp, hw⟩, hl⟩ := h
  simp only [ReadSide.resolve, Resolved.natural_congr hp, Resolved.natural_congr hw,
    Resolved.natural_congr hl]

theorem bridging_congr {raw : Option Scalar} (h : AgreeOn (role.symbols raw) env env') :
    bridging env point raw role = bridging env' point raw role := by
  cases role with
  | slave => simp only [bridging, Resolved.flag_congr h]
  | master => rfl

theorem resolve_congr {d : Declaration} (h : AgreeOn (d.symbols role) env env') :
    resolve env role d = resolve env' role d := by
  simp only [Declaration.symbols, agreeOn_append, agreeOn_flatMap, Option.mem_toList] at h
  obtain ⟨⟨⟨⟨⟨⟨ha, hb⟩, hd⟩, hw⟩, hr⟩, hs⟩, hm⟩ := h
  have haddress : optionally (Address.resolve env d.name) d.address
      = optionally (Address.resolve env' d.name) d.address :=
    optionally_congr fun _ hx => Address.resolve_congr (ha _ hx)
  have hburst : optionally (Burst.resolve env d.name) d.burst
      = optionally (Burst.resolve env' d.name) d.burst :=
    optionally_congr fun _ hx => Burst.resolve_congr (hb _ hx)
  have hwrite : ∀ dataWidth, optionally (WriteSide.resolve env d.name dataWidth) d.write
      = optionally (WriteSide.resolve env' d.name dataWidth) d.write :=
    fun _ => optionally_congr fun _ hx => WriteSide.resolve_congr (hw _ hx)
  have hread : optionally (ReadSide.resolve env d.name) d.read
      = optionally (ReadSide.resolve env' d.name) d.read :=
    optionally_congr fun _ hx => ReadSide.resolve_congr (hr _ hx)
  simp only [resolve, haddress, hburst, Resolved.natural_congr hd, hwrite, hread,
    Resolved.natural_congr hs, bridging_congr hm]

def Burst.fields (b : Burst) : List Field :=
  [.number "max burst count" b.maxCount, .number "burst width" b.width,
   .flag "burst on boundaries only" b.onBoundariesOnly, .flag "line wrap bursts" b.lineWrap]

/-- A burst width that is not declared follows the largest count. -/
def BurstDeclaration.widthOrigin (d : BurstDeclaration) : Origin :=
  match d.width with
  | some raw => .number "burst width" (ofNumber raw)
  | none => .computed "burst width" (ofNumber d.maxCount) Burst.computedWidth

def BurstDeclaration.origins (d : BurstDeclaration) : List Origin :=
  [.number "max burst count" (ofNumber d.maxCount), d.widthOrigin,
   .flag "burst on boundaries only" (flagOr false d.onBoundariesOnly),
   .flag "line wrap bursts" (flagOr false d.lineWrap)]

def WriteSide.fields (w : WriteSide) : List Field :=
  [.number "symbol width" w.symbolWidth, .number "write wait time" w.waitTime,
   .number "hold time" w.holdTime]

def WriteDeclaration.origins (d : WriteDeclaration) : List Origin :=
  [.number "symbol width" (numberOr defaultSymbolWidth d.symbolWidth),
   .number "write wait time" (numberOr 0 d.waitTime),
   .number "hold time" (numberOr 0 d.holdTime)]

def ReadSide.fields (r : ReadSide) : List Field :=
  [.number "max pending reads" r.maxPending, .number "read wait time" r.waitTime,
   .number "read latency" r.latency]

def ReadDeclaration.origins (d : ReadDeclaration) : List Origin :=
  [.number "max pending reads" (numberOr 0 d.maxPending),
   .number "read wait time" (numberOr defaultReadWaitTime d.waitTime),
   .number "read latency" (numberOr 0 d.latency)]

def Role.origins (raw : Option Scalar) : Role → List Origin
  | .slave => [.flag "bridges to master" (flagOr false raw)]
  | .master => []

/-- The resolved fields of a memory-mapped interface. -/
def fields (m : MemoryMapped) : List Field :=
  m.address.toList.map (fun a => .number "address width" a.width)
    ++ m.burst.toList.flatMap Burst.fields
    ++ [.number "data width" m.dataWidth]
    ++ m.write.toList.flatMap WriteSide.fields
    ++ m.read.toList.flatMap ReadSide.fields
    ++ [.number "setup time" m.setupTime]
    ++ m.bridgesToMaster.toList.map (.flag "bridges to master")

/-- What the fields of the interface come from. -/
def Declaration.origins (role : Role) (d : Declaration) : List Origin :=
  d.address.toList.map (fun a => .number "address width" (ofNumber a.width))
    ++ d.burst.toList.flatMap BurstDeclaration.origins
    ++ [.number "data width" (numberOr defaultDataWidth d.dataWidth)]
    ++ d.write.toList.flatMap WriteDeclaration.origins
    ++ d.read.toList.flatMap ReadDeclaration.origins
    ++ [.number "setup time" (numberOr 0 d.setupTime)]
    ++ role.origins d.bridgesToMaster

theorem Address.Resolves.yields {d : AddressDeclaration} {a : Address}
    (h : Address.Resolves env d a) :
    Origin.Yields env (.number "address width" (ofNumber d.width))
      (.number "address width" a.width) := by
  cases h with
  | intro _ h => exact .number h

theorem BurstDeclaration.widthOrigin_yields {d : BurstDeclaration}
    {maxCount width : Resolved UInt64}
    (hm : (ofNumber d.maxCount).Denotes env Value.natural? maxCount)
    (hw : (numberOr (Burst.computedWidth maxCount.value) d.width).Denotes
      env Value.natural? width) :
    Origin.Yields env d.widthOrigin (.number "burst width" width) := by
  unfold widthOrigin
  cases hd : d.width with
  | some raw => exact .number (by rwa [hd] at hw)
  | none => rw [hd] at hw; cases hw; exact .computed hm

theorem Burst.Resolves.yields {d : BurstDeclaration} {b : Burst} (h : Burst.Resolves env d b) :
    List.Forall₂ (Origin.Yields env) d.origins b.fields := by
  obtain ⟨hm, hw, hb, hl⟩ := h
  exact .cons (.number hm)
    (.cons (BurstDeclaration.widthOrigin_yields hm hw) (.cons (.flag hb) (.cons (.flag hl) .nil)))

theorem WriteSide.Resolves.yields {dataWidth : UInt64} {d : WriteDeclaration} {w : WriteSide}
    (h : WriteSide.Resolves env dataWidth d w) :
    List.Forall₂ (Origin.Yields env) d.origins w.fields := by
  obtain ⟨hs, -, hw, hh⟩ := h
  exact .cons (.number hs) (.cons (.number hw) (.cons (.number hh) .nil))

theorem ReadSide.Resolves.yields {d : ReadDeclaration} {r : ReadSide}
    (h : ReadSide.Resolves env d r) :
    List.Forall₂ (Origin.Yields env) d.origins r.fields := by
  obtain ⟨hp, hw, hl⟩ := h
  exact .cons (.number hp) (.cons (.number hw) (.cons (.number hl) .nil))

theorem Bridging.yields {raw : Option Scalar} {r : Option (Resolved Bool)}
    (h : Bridging env raw role r) :
    List.Forall₂ (Origin.Yields env) (role.origins raw)
      (r.toList.map (.flag "bridges to master")) := by
  cases h with
  | slave h => exact .cons (.flag h) .nil
  | master => exact .nil

theorem Resolves.yields {d : Declaration} {m : MemoryMapped} (h : Resolves env role d m) :
    List.Forall₂ (Origin.Yields env) (d.origins role) m.fields := by
  obtain ⟨ha, hb, hd, -, hw, hr, hs, hm⟩ := h
  refine List.rel_append (List.rel_append (List.rel_append (List.rel_append
    (List.rel_append (List.rel_append ?_ ?_) ?_) ?_) ?_) ?_) hm.yields
  · exact List.rel_map (fun _ _ h => h.yields) (forall₂_toList ha)
  · exact List.rel_flatMap (forall₂_toList hb) fun _ _ h => h.yields
  · exact .cons (.number hd) .nil
  · exact List.rel_flatMap (forall₂_toList hw) fun _ _ h => h.yields
  · exact List.rel_flatMap (forall₂_toList hr) fun _ _ h => h.yields
  · exact .cons (.number hs) .nil

/-- The declaration leaves the width of its burst to be computed. -/
def Declaration.ComputesBurstWidth (d : Declaration) : Prop :=
  ∃ b, d.burst = some b ∧ b.width = none

theorem Role.not_isComputed {raw : Option Scalar} {o : Origin} (h : o ∈ role.origins raw) :
    ¬ o.IsComputed := by
  cases role with
  | slave => rw [List.mem_singleton.mp h]; exact not_false
  | master => cases h

theorem Declaration.computesBurstWidth_of_isComputed {d : Declaration} {o : Origin}
    (h : o ∈ d.origins role) (hc : o.IsComputed) :
    d.ComputesBurstWidth ∧ o.label = "burst width" := by
  have hburst : ∃ b ∈ d.burst, o = b.widthOrigin := by
    simp only [origins, BurstDeclaration.origins, WriteDeclaration.origins,
      ReadDeclaration.origins, List.append_assoc, List.mem_append, List.mem_map,
      List.mem_flatMap, List.mem_cons, List.not_mem_nil, or_false, Option.mem_toList] at h
    rcases h with ⟨_, _, rfl⟩ | ⟨b, hb, rfl | ho | rfl | rfl⟩ | rfl | ⟨_, _, rfl | rfl | rfl⟩ |
      ⟨_, _, rfl | rfl | rfl⟩ | rfl | h <;> try exact hc.elim
    · exact ⟨b, hb, ho⟩
    · exact absurd hc (Role.not_isComputed h)
  obtain ⟨b, hb, rfl⟩ := hburst
  unfold BurstDeclaration.widthOrigin at hc ⊢
  cases hw : b.width with
  | some raw => rw [hw] at hc; exact hc.elim
  | none => exact ⟨⟨b, hb, hw⟩, rfl⟩

/-- The computed width is the logarithm of the largest count, rounded up, and at least one. -/
theorem Burst.toNat_computedWidth (maxCount : UInt64) :
    (computedWidth maxCount).toNat = max 1 (Nat.clog 2 maxCount.toNat) := by
  rw [← Width.toNat_ofCount, computedWidth, ← UInt32.toNat_toUInt64]
  generalize (Width.ofCount maxCount).toUInt64 = w
  change (if 1 ≤ w then w else 1).toNat = _
  split
  next h => exact (Nat.max_eq_right (UInt64.le_iff_toNat_le.mp h)).symm
  next h => exact (Nat.max_eq_left (Nat.le_of_not_le (mt UInt64.le_iff_toNat_le.mpr h))).symm

theorem Resolves.burst_width_eq {d : Declaration} {m : MemoryMapped} (h : Resolves env role d m)
    (hc : d.ComputesBurstWidth) :
    ∃ b, m.burst = some b ∧ b.width = { value := Burst.computedWidth b.maxCount.value } := by
  obtain ⟨-, hb, -⟩ := h
  obtain ⟨bd, hd, hw⟩ := hc
  rw [hd] at hb
  cases hb with
  | some hb =>
    obtain ⟨-, hwidth, -⟩ := hb
    rw [hw] at hwidth
    cases hwidth
    exact ⟨_, rfl, rfl⟩

end Interconnect.MemoryMapped
