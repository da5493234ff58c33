import Interconnect.Showcase
import Interconnect.Proofs.Rebuild

/-! # What points hold of the parameters

A field of a point holds a value, and the key of the parameter that the value was read
from. The keys are the same whenever the declaration resolves. Under a key stands the
value that the table stores, and a value without a key is the same under all parameters,
but for the computed width of a burst. A point is resolved again from no parameter but
those that its symbolic fields list.
-/

namespace Interconnect

open Parameter (Environment Table)

/-- Two parameters that a field cannot tell apart. -/
structure Parameter.Alike (p q : Parameter) : Prop where
  value : p.value = q.value
  derived : p.derived = q.derived
  supplied : p.supplied = q.supplied

/-- Two tables agree on a name when both lack it, or both have it alike. -/
def Parameter.Table.AgreeAt (t t' : Table) (name : String) : Prop :=
  Option.Rel Parameter.Alike (t.get? name) (t'.get? name)

instance (p q : Parameter) : Decidable (p.Alike q) :=
  decidable_of_iff (p.value = q.value ∧ p.derived = q.derived ∧ p.supplied = q.supplied)
    ⟨fun ⟨hv, hd, hs⟩ => ⟨hv, hd, hs⟩, fun ⟨hv, hd, hs⟩ => ⟨hv, hd, hs⟩⟩

instance (t t' : Table) (name : String) : Decidable (t.AgreeAt t' name) :=
  match hp : t.get? name, hq : t'.get? name with
  | none, none => .isTrue (by rw [Table.AgreeAt, hp, hq]; exact .none)
  | some p, some q =>
    decidable_of_iff (p.Alike q) (by rw [Table.AgreeAt, hp, hq, Option.rel_some_some])
  | none, some _ => .isFalse (by rw [Table.AgreeAt, hp, hq]; exact nofun)
  | some _, none => .isFalse (by rw [Table.AgreeAt, hp, hq]; exact nofun)

theorem Parameter.Table.AgreeAt.environment_eq {t t' : Table} {name : String}
    (h : t.AgreeAt t' name) : t.environment name = t'.environment name := by
  unfold Table.AgreeAt at h
  unfold Table.environment
  generalize t.get? name = p at h ⊢
  generalize t'.get? name = q at h ⊢
  cases h with
  | none => rfl
  | some h => simp [reading, h.value, h.derived, h.supplied]

namespace Point

/-- The declaration leaves the width of its burst to be computed. -/
def Declaration.ComputesBurstWidth : Declaration → Prop
  | master d => d.ComputesBurstWidth
  | slave d => d.ComputesBurstWidth
  | _ => False

theorem Declaration.computesBurstWidth_iff {d : Declaration} {b : Blueprint}
    (hb : b ∈ d.blueprints) : b.ComputesBurstWidth ↔ d.ComputesBurstWidth := by
  cases d with
  | clockReset d => rcases List.mem_pair.mp hb with rfl | rfl <;> rfl
  | clock | reset | sink | source | master | slave | conduit =>
    obtain rfl := List.mem_singleton.mp hb
    rfl

/-- The fields of a point with a key hold what the table stores under the key. -/
structure Reads (t : Table) (p : Point) : Prop where
  field : ∀ f ∈ p.fields, ∀ key, f.key = some key → t.lookup key = some f.value
  handshake : ∀ e key mode, p.record.endpoint? = some e → e.handshake.key = some key →
    e.handshake.mode = some mode →
    ∃ text, t.lookup key = some (.text text) ∧ Text.upper text = Text.upper mode.render

/-- The width of the burst is the logarithm of the largest count, and at least one. -/
def BurstWidthComputed (p : Point) : Prop :=
  ∃ m b, p.record.memoryMapped? = some m ∧ m.burst = some b ∧ b.width.key = none ∧
    b.width.value.toNat = max 1 (Nat.clog 2 b.maxCount.value.toNat)

/-- Two points of one declaration under two tables: the same fields with the same keys,
each with the value of its table, and equal where there is no key. -/
structure Dual (d : Declaration) (t t' : Table) (p p' : Point) : Prop where
  keys : p.fields.map (fun f => (f.label, f.key)) = p'.fields.map fun f => (f.label, f.key)
  handshake : p.record.endpoint?.map (·.handshake.key) = p'.record.endpoint?.map (·.handshake.key)
  left : p.Reads t
  right : p'.Reads t'
  unkeyed : List.Forall₂ (fun f f' => f.key = none →
    f = f' ∨ d.ComputesBurstWidth ∧ f.label = "burst width") p.fields p'.fields
  burst : d.ComputesBurstWidth → p.BurstWidthComputed ∧ p'.BurstWidthComputed

end Point

namespace Blueprint

variable {b : Blueprint} {p p' : Point}

theorem Resolves.reads {t : Table}
    (h : b.Resolves t.environment p) : p.Reads t := by
  have hlookup {key : String} {r : Parameter.Reading} (hr : t.environment key = some r) :
      t.lookup key = some r.value := by
    obtain ⟨q, hq, rfl⟩ := Option.map_eq_some_iff.mp hr
    rw [Table.lookup, hq]
    rfl
  constructor
  · intro f hf key hk
    obtain ⟨o, -, ho⟩ := exists_mem_of_forall₂ h.yields hf
    obtain ⟨r, hr, hv⟩ := ho.value_eq hk
    rw [hlookup hr, hv]
  · intro e key mode he hk hm
    cases h with
    | clock | reset | memoryMapped | conduit => cases he
    | endpoint h =>
      cases he
      obtain ⟨-, -, -, -, hh, -⟩ := h
      obtain ⟨r, text, hr, hv, hu⟩ := hh.text_eq hk hm
      exact ⟨text, by rw [hlookup hr, hv], hu⟩

theorem Resolves.handshake_key_congr {env env' : Environment}
    (h : b.Resolves env p) (h' : b.Resolves env' p') :
    p.record.endpoint?.map (·.handshake.key) = p'.record.endpoint?.map (·.handshake.key) := by
  cases h with
  | clock | reset | memoryMapped | conduit => cases h'; rfl
  | endpoint h =>
    cases h' with
    | endpoint h' =>
      obtain ⟨-, -, -, -, hh, -⟩ := h
      obtain ⟨-, -, -, -, hh', -⟩ := h'
      exact congrArg some (hh.key_congr hh')

theorem Resolves.burstWidthComputed {env : Environment}
    (h : b.Resolves env p) (hc : b.ComputesBurstWidth) : p.BurstWidthComputed := by
  cases h with
  | clock | reset | endpoint | conduit => exact hc.elim
  | @memoryMapped _ _ m h =>
    obtain ⟨burst, hb, hw⟩ := h.burst_width_eq hc
    refine ⟨m, burst, rfl, hb, ?_, ?_⟩
    · rw [hw]
    · rw [hw, MemoryMapped.Burst.toNat_computedWidth]

end Blueprint

namespace Point

/-- A registered point is resolved again from the parameters of its symbolic fields alone:
tables that agree on them give the same point, or the same error. -/
theorem refresh_eq_of_agreeAt {r : Registry} {t t₁ t₂ : Table} {d : Declaration} {name : String}
    {p : Point} (hok : (r.register t.environment d).answer = .ok ()) (hname : name ∈ d.names)
    (hp : (r.register t.environment d).state.get? name = some p)
    (h : ∀ s ∈ p.symbolicFields, t₁.AgreeAt t₂ s.2) :
    p.refresh t₁.environment = p.refresh t₂.environment := by
  obtain ⟨b, -, hb⟩ := Registry.exists_resolves_of_register hok hname hp
  rw [hb.refresh_eq, hb.refresh_eq]
  apply Blueprint.resolve_congr
  intro s hs
  rw [← hb.symbolicFields_eq] at hs
  exact (h s hs).environment_eq

/-- The parameters of an example table. -/
def exampleTable (ds : List Parameter.Declaration) : Table :=
  (Outcome.forEach Table.add {} ds).state

/-- A sink whose width and handshake are parameters. -/
def exampleSink : Endpoint.Declaration where
  name := "In"
  clock := "Clk"
  reset := "Reset"
  data := { name := "D", width := .text "WIDTH", handshake := some "MODE" }

/-- A table in which the sink is complete. -/
def completeTable : Table :=
  exampleTable [Showcase.natural "WIDTH" 8, Showcase.text "MODE" "NO_READY"]

/-- A table in which the mode is still to be supplied. -/
def pendingTable : Table :=
  exampleTable
    [ Showcase.natural "WIDTH" 16,
      { Showcase.text "MODE" "later" with derived := true } ]

/-- The pending table in another order, among other parameters. -/
def largerTable : Table :=
  exampleTable
    [ .heading "Streaming",
      { Showcase.text "MODE" "later" with derived := true },
      Showcase.natural "DEPTH" 3,
      Showcase.natural "WIDTH" 16 ]

theorem refresh_eq_of_agreeAt_exampleSink :
    ∃ p, (Registry.register {} completeTable.environment (.sink exampleSink)).state.get? "In"
        = some p ∧
      p.refresh pendingTable.environment = p.refresh largerTable.environment :=
  ⟨_, rfl, refresh_eq_of_agreeAt (r := {}) (t := completeTable) (d := .sink exampleSink)
    (by decide) (show "In" ∈ _ by decide) rfl (by decide)⟩

/-- A declaration that resolves under two tables gives dual points. -/
theorem ofDeclaration_dual {t t' : Table} {d : Declaration} {ps ps' : List Point}
    (h : ofDeclaration t.environment d = .ok ps) (h' : ofDeclaration t'.environment d = .ok ps') :
    List.Forall₂ (Dual d t t') ps ps' := by
  rw [ofDeclaration_eq, mapM_eq_ok_iff] at h h'
  refine forall₂_of_common h h' fun b hb p p' hp hp' => ?_
  rw [Blueprint.resolve_eq_ok_iff] at hp hp'
  have hcomputes := Declaration.computesBurstWidth_iff hb
  constructor
  case keys => exact Origin.map_eq_of_yields hp.yields hp'.yields
  case handshake => exact hp.handshake_key_congr hp'
  case left => exact hp.reads
  case right => exact hp'.reads
  -- Without a key only a computed origin can tell two tables apart.
  case unkeyed =>
    refine (Origin.forall₂_of_yields hp.yields hp'.yields).imp fun f f' hf hk => ?_
    rcases hf hk with heq | ⟨o, ho, hc, hl⟩
    · exact Or.inl heq
    · obtain ⟨hb, hlabel⟩ := Blueprint.computesBurstWidth_of_isComputed ho hc
      exact Or.inr ⟨hcomputes.mp hb, hl ▸ hlabel⟩
  case burst =>
    intro hc
    rw [← hcomputes] at hc
    exact ⟨hp.burstWidthComputed hc, hp'.burstWidthComputed hc⟩

/-- A master that bursts, without a width for its counts. -/
def exampleMaster : MemoryMapped.Declaration where
  name := "Master"
  clock := "Clk"
  reset := "Reset"
  burst := some { name := "BurstCount", maxCount := .text "COUNT", lineWrap := some (.text "WRAP") }
  dataWidth := some (.text "WIDTH")

/-- Parameters of a narrow bus with short bursts. -/
def narrowTable : Table :=
  exampleTable [Showcase.natural "COUNT" 4, Showcase.flag "WRAP" true, Showcase.natural "WIDTH" 32]

/-- Parameters of a wide bus with long bursts. -/
def wideTable : Table :=
  exampleTable
    [Showcase.natural "WIDTH" 64, Showcase.natural "COUNT" 100, Showcase.flag "WRAP" false]

/-- One master under both tables, with one set of keys and each with the burst width of its own
largest count. -/
theorem ofDeclaration_dual_exampleMaster :
    ∃ p p', ofDeclaration narrowTable.environment (.master exampleMaster) = .ok [p] ∧
      ofDeclaration wideTable.environment (.master exampleMaster) = .ok [p'] ∧
      Dual (.master exampleMaster) narrowTable wideTable p p' ∧
      (p.name = "Master" ∧ p'.name = "Master") ∧
      p.symbolicFields
        = [("max burst count", "COUNT"), ("line wrap bursts", "WRAP"), ("data width", "WIDTH")] ∧
      p'.symbolicFields = p.symbolicFields ∧
      p.record.memoryMapped?.bind (·.burstWidth?) = some 2 ∧
      p'.record.memoryMapped?.bind (·.burstWidth?) = some 7 := by
  have hnarrow : ofDeclaration narrowTable.environment (.master exampleMaster) = .ok [_] := rfl
  have hwide : ofDeclaration wideTable.environment (.master exampleMaster) = .ok [_] := rfl
  have hdual := (List.forall₂_cons.mp (ofDeclaration_dual hnarrow hwide)).1
  exact ⟨_, _, hnarrow, hwide, hdual, ⟨rfl, rfl⟩, rfl, rfl, rfl, rfl⟩

end Point

end Interconnect
