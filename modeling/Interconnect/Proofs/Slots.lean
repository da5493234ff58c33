import Interconnect.Proofs.Elaboration
import Interconnect.Proofs.History
import Interconnect.Proofs.Validity.Point

/-! # The slots of a declaration

The declaration of a point has a fixed list of slots that may name a parameter, each with its
label. What stands in a slot tells whether it does, before anything is resolved. The symbolic
fields of the resolved point are the slots that do, in their order. The bindings of a registry
therefore join the same fields to the same parameters, whatever the values of the parameters.
-/

namespace Interconnect

open Parameter (Environment Table)
open Reference (ofNumber ofFlag numberOr flagOr)
open Endpoint (Mode)

/-- A place in a declaration that may name a parameter, with what is written there. -/
inductive Slot where
  | field (label : String) (raw : Option Scalar)
  | handshake (name : Option String)
  deriving DecidableEq, Repr

namespace Slot

def label : Slot → String
  | field label _ => label
  | handshake _ => "handshake"

/-- A text that begins like a name names a parameter. A handshake names one whatever its text
is, unless that is the name of a mode. -/
inductive Names : Slot → String → Prop where
  | field {label s : String} : Text.BeginsName s → Names (field label (some (.text s))) s
  | handshake {s : String} : (∀ mode : Mode, Text.upper s ≠ Text.upper mode.render) →
      Names (handshake (some s)) s

/-- The parameter that a slot names, if it does. -/
def parameter? : Slot → Option String
  | field _ (some (.text s)) => if Text.isSymbol s then some s else none
  | field _ _ => none
  | handshake (some s) => if (Mode.ofName? s).isSome then none else some s
  | handshake none => none

/-- The slots that name a parameter, each as its label and the parameter. -/
def symbols (slots : List Slot) : List (String × String) :=
  slots.filterMap fun slot => slot.parameter?.map (slot.label, ·)

theorem parameter?_eq_some_iff {slot : Slot} {s : String} :
    slot.parameter? = some s ↔ slot.Names s := by
  constructor
  · intro h
    unfold parameter? at h
    split at h
    · obtain ⟨hs, he⟩ := Option.ite_none_right_eq_some.mp h
      obtain rfl := Option.some.inj he
      exact .field (Text.isSymbol_iff.mp hs)
    · cases h
    next name =>
      obtain ⟨hmode, he⟩ := Option.ite_none_left_eq_some.mp h
      obtain rfl := Option.some.inj he
      refine .handshake fun mode hupper => hmode ?_
      rw [Mode.ofName?_eq_some_iff.mpr hupper, Option.isSome_some]
    · cases h
  · rintro (hs | hmode)
    · rw [parameter?, if_pos (Text.isSymbol_iff.mpr hs)]
    · rw [parameter?, if_neg]
      intro hsome
      obtain ⟨mode, hname⟩ := Option.isSome_iff_exists.mp hsome
      exact hmode mode (Mode.ofName?_eq_some_iff.mp hname)

/-- The entry of a slot in a list of symbolic fields: none if it names no parameter. -/
def entry (slot : Slot) : List (String × String) := slot.parameter?.toList.map (slot.label, ·)

theorem symbols_cons (slot : Slot) (slots : List Slot) :
    symbols (slot :: slots) = slot.entry ++ symbols slots := by
  cases h : slot.parameter? <;> simp [symbols, entry, h]

theorem symbols_eq_flatMap (slots : List Slot) : symbols slots = slots.flatMap entry := by
  induction slots with
  | nil => rfl
  | cons slot slots ih => rw [symbols_cons, ih, List.flatMap_cons]

@[simp] theorem entry_field_none (label : String) : (field label none).entry = [] := rfl

theorem flatMap_entry_some (label : String) (raw : Option Scalar) :
    raw.toList.flatMap (fun raw => (field label (some raw)).entry) = (field label raw).entry := by
  cases raw <;> simp

end Slot

namespace Reference

variable {label : String}

theorem name?_eq_some_iff {α : Type} {ref : Reference α} {name : String} :
    ref.name? = some name ↔ ref = .symbol name := by
  cases ref <;> simp [name?]

theorem symbols_eq_entry {α : Type} {ref : Reference α} {raw : Scalar}
    (h : ∀ name, ref = .symbol name ↔ raw = .text name ∧ Text.BeginsName name) (label : String) :
    ref.symbols label = (Slot.field label (some raw)).entry := by
  have hname : ref.name? = (Slot.field label (some raw)).parameter? := by
    ext name
    rw [name?_eq_some_iff, h, Slot.parameter?_eq_some_iff]
    constructor
    · rintro ⟨rfl, hs⟩; exact .field hs
    · rintro ⟨hs⟩; exact ⟨rfl, hs⟩
  rw [symbols, hname]
  rfl

theorem symbols_ofNumber (label : String) (raw : Scalar) :
    (ofNumber raw).symbols label = (Slot.field label (some raw)).entry :=
  symbols_eq_entry (fun _ => ofNumber_eq_symbol_iff) label

theorem symbols_ofFlag (label : String) (raw : Scalar) :
    (ofFlag raw).symbols label = (Slot.field label (some raw)).entry :=
  symbols_eq_entry (fun _ => ofFlag_eq_symbol_iff) label

theorem symbols_numberOr_eq (label : String) (default : UInt64) (raw : Option Scalar) :
    (numberOr default raw).symbols label = (Slot.field label raw).entry := by
  cases raw with
  | none => rfl
  | some raw => exact symbols_ofNumber label raw

theorem symbols_flagOr_eq (label : String) (default : Bool) (raw : Option Scalar) :
    (flagOr default raw).symbols label = (Slot.field label raw).entry := by
  cases raw with
  | none => rfl
  | some raw => exact symbols_ofFlag label raw

end Reference

namespace Endpoint

/-- The slots of an endpoint. A symbol width that is taken over from the data is in none. -/
def Declaration.slots (d : Declaration) : List Slot :=
  [ .field "data width" (some d.data.width),
    .field "symbol width" d.data.symbolWidth,
    .handshake d.data.handshake,
    .field "use packets" (d.packets.map (·.usePackets)),
    .field "use empty" (d.packets.bind (·.useEmpty)),
    .field "use channel" (d.channel.map (·.useChannel)),
    .field "max channel" (d.channel.bind (·.maxChannel)),
    .field "error width" (d.error.map (·.width)) ]

end Endpoint

namespace MemoryMapped

/-- The slots of a memory-mapped interface. The bridging flag is one of a slave only. -/
def Declaration.slots (role : Role) (d : Declaration) : List Slot :=
  [ .field "address width" (d.address.map (·.width)),
    .field "max burst count" (d.burst.map (·.maxCount)),
    .field "burst width" (d.burst.bind (·.width)),
    .field "burst on boundaries only" (d.burst.bind (·.onBoundariesOnly)),
    .field "line wrap bursts" (d.burst.bind (·.lineWrap)),
    .field "data width" d.dataWidth,
    .field "symbol width" (d.write.bind (·.symbolWidth)),
    .field "write wait time" (d.write.bind (·.waitTime)),
    .field "hold time" (d.write.bind (·.holdTime)),
    .field "max pending reads" (d.read.bind (·.maxPending)),
    .field "read wait time" (d.read.bind (·.waitTime)),
    .field "read latency" (d.read.bind (·.latency)),
    .field "setup time" d.setupTime,
    .field "bridges to master"
      (match role with
      | .slave => d.bridgesToMaster
      | .master => none) ]

end MemoryMapped

/-- The slots of a conduit are the widths of its signals. -/
def Conduit.Declaration.slots (d : Conduit.Declaration) : List Slot :=
  d.signals.map fun s => .field s.name (some s.width)

/-- The slots of a declaration, in the order of its kind. Clocks and resets have none. -/
def Point.Declaration.slots : Point.Declaration → List Slot
  | clock _ => []
  | reset _ => []
  | clockReset _ => []
  | sink d => d.slots
  | source d => d.slots
  | master d => d.slots .master
  | slave d => d.slots .slave
  | conduit d => d.slots

theorem Endpoint.symbols_slots (d : Declaration) : Slot.symbols d.slots = d.symbols := by
  have hhandshake : (Slot.handshake d.data.handshake).entry
      = Handshake.symbols d.data.handshake := by
    cases d.data.handshake with
    | none => rfl
    | some name =>
      cases h : Mode.ofName? name <;>
        simp [Slot.entry, Slot.parameter?, Slot.label, Handshake.symbols, h]
  have hpackets : d.packets.toList.flatMap PacketDeclaration.symbols
      = (Slot.field "use packets" (d.packets.map (·.usePackets))).entry
        ++ (Slot.field "use empty" (d.packets.bind (·.useEmpty))).entry := by
    cases d.packets <;>
      simp [PacketDeclaration.symbols, Reference.symbols_ofFlag, Slot.flatMap_entry_some]
  have hchannel : d.channel.toList.flatMap ChannelDeclaration.symbols
      = (Slot.field "use channel" (d.channel.map (·.useChannel))).entry
        ++ (Slot.field "max channel" (d.channel.bind (·.maxChannel))).entry := by
    cases d.channel <;>
      simp [ChannelDeclaration.symbols, Reference.symbols_ofFlag, Reference.symbols_ofNumber,
        Slot.flatMap_entry_some]
  have herror : d.error.toList.flatMap (fun e => (ofNumber e.width).symbols "error width")
      = (Slot.field "error width" (d.error.map (·.width))).entry := by
    cases d.error <;> simp [Reference.symbols_ofNumber]
  rw [Declaration.symbols, hpackets, hchannel, herror, ← hhandshake]
  simp [Declaration.slots, Slot.symbols_eq_flatMap, Reference.symbols_ofNumber,
    Slot.flatMap_entry_some]

theorem MemoryMapped.symbols_slots (role : Role) (d : Declaration) :
    Slot.symbols (d.slots role) = d.symbols role := by
  have haddress : d.address.toList.flatMap (fun a => (ofNumber a.width).symbols "address width")
      = (Slot.field "address width" (d.address.map (·.width))).entry := by
    cases d.address <;> simp [Reference.symbols_ofNumber]
  have hburst : d.burst.toList.flatMap BurstDeclaration.symbols
      = (Slot.field "max burst count" (d.burst.map (·.maxCount))).entry
        ++ (Slot.field "burst width" (d.burst.bind (·.width))).entry
        ++ (Slot.field "burst on boundaries only" (d.burst.bind (·.onBoundariesOnly))).entry
        ++ (Slot.field "line wrap bursts" (d.burst.bind (·.lineWrap))).entry := by
    cases d.burst <;>
      simp [BurstDeclaration.symbols, Reference.symbols_ofNumber, Reference.symbols_numberOr_eq,
        Reference.symbols_flagOr_eq]
  have hwrite : d.write.toList.flatMap WriteDeclaration.symbols
      = (Slot.field "symbol width" (d.write.bind (·.symbolWidth))).entry
        ++ (Slot.field "write wait time" (d.write.bind (·.waitTime))).entry
        ++ (Slot.field "hold time" (d.write.bind (·.holdTime))).entry := by
    cases d.write <;> simp [WriteDeclaration.symbols, Reference.symbols_numberOr_eq]
  have hread : d.read.toList.flatMap ReadDeclaration.symbols
      = (Slot.field "max pending reads" (d.read.bind (·.maxPending))).entry
        ++ (Slot.field "read wait time" (d.read.bind (·.waitTime))).entry
        ++ (Slot.field "read latency" (d.read.bind (·.latency))).entry := by
    cases d.read <;> simp [ReadDeclaration.symbols, Reference.symbols_numberOr_eq]
  rw [Declaration.symbols, haddress, hburst, hwrite, hread]
  cases role <;>
    simp [Declaration.slots, Slot.symbols_eq_flatMap, Reference.symbols_numberOr_eq,
      Reference.symbols_flagOr_eq, Role.symbols]

theorem Conduit.symbols_slots (d : Declaration) : Slot.symbols d.slots = d.symbols := by
  rw [Slot.symbols_eq_flatMap, Declaration.slots, List.flatMap_map, Declaration.symbols]
  simp only [Reference.symbols_ofNumber]

/-- Where a binding joins which parameter. -/
def Binding.site (b : Binding) : String × String × String := (b.point, b.field, b.parameter)

namespace Point

theorem Declaration.symbols_of_mem_blueprints {d : Declaration} {b : Blueprint}
    (h : b ∈ d.blueprints) : b.symbols = Slot.symbols d.slots := by
  cases d with
  | clock | reset => obtain rfl := List.mem_singleton.mp h; rfl
  | clockReset => rcases List.mem_pair.mp h with rfl | rfl <;> rfl
  | sink d | source d =>
    obtain rfl := List.mem_singleton.mp h
    exact (Endpoint.symbols_slots d).symm
  | master d =>
    obtain rfl := List.mem_singleton.mp h
    exact (MemoryMapped.symbols_slots .master d).symm
  | slave d =>
    obtain rfl := List.mem_singleton.mp h
    exact (MemoryMapped.symbols_slots .slave d).symm
  | conduit d =>
    obtain rfl := List.mem_singleton.mp h
    exact (Conduit.symbols_slots d).symm

/-- The sites of the bindings of a declaration: for each of its names, its symbolic slots. -/
def Declaration.sites (d : Declaration) : List (String × String × String) :=
  d.names.flatMap fun name =>
    (Slot.symbols d.slots).map fun (field, key) => (name, field, key)

theorem symbolicFields_of_ofDeclaration {env : Environment} {d : Declaration} {ps : List Point}
    (h : ofDeclaration env d = .ok ps) {p : Point} (hp : p ∈ ps) :
    p.symbolicFields = Slot.symbols d.slots := by
  rw [ofDeclaration_eq, mapM_eq_ok_iff] at h
  obtain ⟨b, hb, hresolve⟩ := exists_mem_of_forall₂ h hp
  have hresolves : b.Resolves env p := Blueprint.resolve_eq_ok_iff.mp hresolve
  rw [hresolves.symbolicFields_eq, Declaration.symbols_of_mem_blueprints hb]

end Point

namespace Registry

open Point (Declaration)

variable {r : Registry} {t : Table} {ds : List Declaration}

theorem map_site_bindings (r : Registry) (t : Table) :
    (r.bindings t).map Binding.site = r.symbolicFields := by
  have hreread : (r.bindings t).map Binding.site
      = ((r.bindings t).map Binding.reread).map Binding.site := by
    rw [List.map_map]
    rfl
  have hfield : Binding.site ∘ Binding.ofField t = id := rfl
  rw [hreread, bindings, map_reread_bind, List.map_map, hfield, List.map_id]

/-- The points may have been resolved against different parameters, but each has the symbolic
fields of its declaration. -/
theorem Built.symbolicFields_eq (h : Built r ds) :
    r.symbolicFields = ds.flatMap Declaration.sites := by
  have hblueprints : r.symbolicFields = (ds.flatMap Declaration.blueprints).flatMap fun b =>
      b.symbols.map fun (field, key) => (b.name, field, key) := by
    rw [symbolicFields, Dictionary.values, List.flatMap_map]
    refine flatMap_eq_of_forall₂ h.entries fun b e ⟨env, he⟩ => ?_
    obtain ⟨hresolves, -⟩ := Blueprint.entry_eq_ok_iff.mp he
    rw [hresolves.symbolicFields_eq, hresolves.name_eq]
  have hsites (d : Declaration) : (d.blueprints.flatMap fun b =>
      b.symbols.map fun (field, key) => (b.name, field, key)) = d.sites := by
    rw [Declaration.sites, ← d.map_name_blueprints, List.flatMap_map]
    refine List.flatMap_congr fun b hb => ?_
    rw [Declaration.symbols_of_mem_blueprints hb]
  rw [hblueprints, List.flatMap_assoc]
  simp only [hsites]

end Registry

namespace Point.Declaration

open Registry (Reached)

/-- The symbolic fields of a resolved point are the slots of its declaration that name a
parameter, in order. The slots of a kind have distinct labels; those of a conduit are its
signals. A registry therefore has the same bindings between fields and parameters whatever
tables its points were resolved against. -/
theorem symbolicFields_declared :
    (∀ slot s, Slot.parameter? slot = some s ↔ slot.Names s) ∧
      (∀ d : Declaration, d.kind ≠ .conduit → (d.slots.map Slot.label).Nodup) ∧
      (∀ env d ps, ofDeclaration env d = .ok ps → ∀ p ∈ ps,
        p.symbolicFields = Slot.symbols d.slots) ∧
      (∀ (t : Table) ds r, Registry.ofDeclarations t.environment ds = .ok r →
        (r.bindings t).map Binding.site = ds.flatMap sites) ∧
      ∀ r ds ts, Reached r ds ts → ∀ t, (r.bindings t).map Binding.site = ds.flatMap sites := by
  refine ⟨fun _ _ => Slot.parameter?_eq_some_iff, fun d hd => ?_,
    fun _ _ _ h _ hp => symbolicFields_of_ofDeclaration h hp, fun t ds r h => ?_,
    fun r ds ts h t => ?_⟩
  · cases d with
    | clock | reset | clockReset => exact .nil
    | sink | source => simp [slots, Endpoint.Declaration.slots, Slot.label]
    | master | slave => simp [slots, MemoryMapped.Declaration.slots, Slot.label]
    | conduit => exact absurd rfl hd
  · rw [Registry.map_site_bindings, (Registry.built_of_ofDeclarations h).symbolicFields_eq]
  · rw [Registry.map_site_bindings, h.built.symbolicFields_eq]

/-- The same bindings for short bursts on a narrow bus and for long ones on a wide bus. -/
theorem symbolicFields_declared_exampleMaster :
    ∃ r r', Registry.ofDeclarations narrowTable.environment [.master exampleMaster] = .ok r ∧
      Registry.ofDeclarations wideTable.environment [.master exampleMaster] = .ok r' ∧
      (r.bindings narrowTable).map Binding.site =
        [ ("Master", "max burst count", "COUNT"), ("Master", "line wrap bursts", "WRAP"),
          ("Master", "data width", "WIDTH") ] ∧
      (r'.bindings wideTable).map Binding.site = (r.bindings narrowTable).map Binding.site := by
  have hnarrow : Registry.ofDeclarations narrowTable.environment [.master exampleMaster]
      = .ok _ := rfl
  have hwide : Registry.ofDeclarations wideTable.environment [.master exampleMaster]
      = .ok _ := rfl
  have hsites := symbolicFields_declared.2.2.2.1
  exact ⟨_, _, hnarrow, hwide, (hsites _ _ _ hnarrow).trans rfl,
    (hsites _ _ _ hwide).trans (hsites _ _ _ hnarrow).symm⟩

end Point.Declaration

end Interconnect
