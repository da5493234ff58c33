import Mathlib
import Interconnect.Description.Basic
import Interconnect.Proofs.Inversion

/-! # Loading descriptions

A draft is completed in stages. Every table of a connection point is read, and then the names
of the component, of the parameters and of the connection points are checked. Within a stage
the first fault counts, and an earlier stage goes before a later one. A draft without faults
gives the description with its parts, in order.
-/

namespace Interconnect

open Toml (Fields)

namespace Text

/-- A text that names something: one of its characters is not blank. -/
def IsName (s : String) : Prop := ∃ c ∈ s.toList, isBlank c = false

theorem isBlankText_eq_false_iff {s : String} : isBlankText s = false ↔ IsName s := by
  simp [isBlankText, IsName]

theorem isBlankText_eq_true_iff {s : String} : isBlankText s = true ↔ ¬ IsName s := by
  rw [← isBlankText_eq_false_iff, Bool.not_eq_false]

end Text

section Order

variable {α : Type} {P : Nat → α → Prop} {a x : α} {as : List α} {j : Nat}

/-- The item at the index has the property, and no item before it has. -/
structure FirstAt (P : Nat → α → Prop) (as : List α) (j : Nat) (x : α) : Prop where
  item : as[j]? = some x
  holds : P j x
  before : ∀ i < j, ∀ y, as[i]? = some y → ¬ P i y

theorem not_firstAt_nil : ¬ FirstAt P [] j x := by
  rintro ⟨hitem, -, -⟩
  cases hitem

theorem firstAt_cons_iff : FirstAt P (a :: as) j x ↔
    (P 0 a ∧ j = 0 ∧ a = x) ∨
      (¬ P 0 a ∧ ∃ i, j = i + 1 ∧ FirstAt (fun i => P (i + 1)) as i x) := by
  constructor
  · rintro ⟨hitem, hholds, hbefore⟩
    cases j with
    | zero =>
      obtain rfl := Option.some.inj hitem
      exact .inl ⟨hholds, rfl, rfl⟩
    | succ i =>
      refine .inr ⟨hbefore 0 (Nat.succ_pos i) a rfl, i, rfl, hitem, hholds, ?_⟩
      exact fun k hk y hy => hbefore (k + 1) (Nat.succ_lt_succ hk) y hy
  · rintro (⟨hholds, rfl, rfl⟩ | ⟨hhead, i, rfl, hitem, hholds, hbefore⟩)
    · exact ⟨rfl, hholds, fun i hi => absurd hi (Nat.not_lt_zero i)⟩
    · refine ⟨hitem, hholds, fun k hk y hy => ?_⟩
      cases k with
      | zero =>
        obtain rfl := Option.some.inj hy
        exact hhead
      | succ k => exact hbefore k (Nat.lt_of_succ_lt_succ hk) y hy

end Order

namespace Description

open Point (Declaration)

variable {index : Nat} {tables : List Fields} {ds : List Declaration} {e : Error}

/-- The declarations are those of the tables, each read at its own index. -/
def TablesRead (index : Nat) (tables : List Fields) (ds : List Declaration) : Prop :=
  ds.length = tables.length ∧ ∀ j fs, tables[j]? = some fs →
    ∃ d, ds[j]? = some d ∧ PointTable.declaration (index + j) fs = .ok d

theorem tablesRead_cons_iff {fs : Fields} :
    TablesRead index (fs :: tables) ds ↔ ∃ d ds', PointTable.declaration index fs = .ok d ∧
      TablesRead (index + 1) tables ds' ∧ ds = d :: ds' := by
  constructor
  · rintro ⟨hlength, hread⟩
    cases ds with
    | nil => cases hlength
    | cons d ds' =>
      obtain ⟨_, hd, hdecl⟩ := hread 0 fs rfl
      obtain rfl := Option.some.inj hd
      refine ⟨d, ds', hdecl, ⟨Nat.succ.inj hlength, fun j fs' hfs => ?_⟩, rfl⟩
      rw [Nat.add_right_comm]
      exact hread (j + 1) fs' hfs
  · rintro ⟨d, ds', hdecl, ⟨hlength, hread⟩, rfl⟩
    refine ⟨congrArg Nat.succ hlength, fun j fs' hfs => ?_⟩
    cases j with
    | zero =>
      obtain rfl := Option.some.inj hfs
      exact ⟨d, rfl, hdecl⟩
    | succ j =>
      obtain ⟨d', hd', hdecl'⟩ := hread j fs' hfs
      rw [Nat.add_right_comm] at hdecl'
      exact ⟨d', hd', hdecl'⟩

namespace Draft

theorem declarations_eq_ok_iff :
    declarations index tables = .ok ds ↔ TablesRead index tables ds := by
  induction tables generalizing index ds with
  | nil =>
    rw [declarations, Except.ok.injEq]
    constructor
    · rintro rfl; exact ⟨rfl, nofun⟩
    · rintro ⟨hlength, -⟩; exact (List.length_eq_zero_iff.mp hlength).symm
  | cons fs tables ih =>
    simp only [declarations, bind_eq_ok_iff, ih, tablesRead_cons_iff, pure, Except.pure,
      Except.ok.injEq]
    constructor
    · rintro ⟨d, hd, ds', hds, rfl⟩; exact ⟨d, ds', hd, hds, rfl⟩
    · rintro ⟨d, ds', hd, hds, rfl⟩; exact ⟨d, hd, ds', hds, rfl⟩

theorem declarations_eq_error_iff :
    declarations index tables = .error e ↔ ∃ j fs,
      FirstAt (fun j fs => ∀ d, PointTable.declaration (index + j) fs ≠ .ok d) tables j fs ∧
      PointTable.declaration (index + j) fs = .error e := by
  induction tables generalizing index with
  | nil =>
    simp only [declarations, reduceCtorEq, false_iff]
    rintro ⟨_, _, hfirst, -⟩
    exact not_firstAt_nil hfirst
  | cons fs tables ih =>
    simp only [declarations, bind_eq_error_iff, ih, firstAt_cons_iff, pure, Except.pure,
      reduceCtorEq, and_false, exists_false, or_false, Nat.add_right_comm index 1]
    constructor
    · rintro (hfs | ⟨d, hfs, i, fs', hfirst, he⟩)
      · exact ⟨0, fs, .inl ⟨by simp [hfs], rfl, rfl⟩, hfs⟩
      · exact ⟨i + 1, fs', .inr ⟨by simp [hfs], i, rfl, hfirst⟩, he⟩
    · rintro ⟨_, _, ⟨-, rfl, rfl⟩ | ⟨hfs, i, rfl, hfirst⟩, he⟩
      · exact .inl he
      · simp only [ne_eq, not_forall, not_not] at hfs
        obtain ⟨d, hfs⟩ := hfs
        exact .inr ⟨d, hfs, i, _, hfirst, he⟩

end Draft

section Names

variable {α : Type} {names : α → List String} {field : Nat → String} {items : List α}

theorem checkNames_eq_ok_iff {u : Unit} :
    checkNames names field index items = .ok u ↔
      ∀ item ∈ items, ∀ name ∈ names item, Text.IsName name := by
  induction items generalizing index with
  | nil => simp [checkNames]
  | cons item items ih =>
    have hitems : checkNames names field (index + 1) items = .ok u ↔ _ := ih
    rw [checkNames, List.forall_mem_cons, ← hitems]
    split
    next hblank =>
      obtain ⟨name, hname, hblank⟩ := List.any_eq_true.mp hblank
      simp only [reduceCtorEq, false_iff, not_and]
      exact fun hitem => absurd (hitem name hname) (Text.isBlankText_eq_true_iff.mp hblank)
    next hblank =>
      simp only [List.any_eq_true, not_exists, not_and, Text.isBlankText_eq_true_iff,
        not_not] at hblank
      exact (and_iff_right hblank).symm

/-- The names are refused at the first item that has a blank one. -/
theorem checkNames_eq_error_iff :
    checkNames names field index items = .error e ↔ ∃ j item,
      FirstAt (fun _ item => ∃ name ∈ names item, ¬ Text.IsName name) items j item ∧
      e = .missingField (field (index + j)) := by
  induction items generalizing index with
  | nil =>
    simp only [checkNames, reduceCtorEq, false_iff]
    rintro ⟨_, _, hfirst, -⟩
    exact not_firstAt_nil hfirst
  | cons item items ih =>
    have hany : (names item).any Text.isBlankText = true ↔
        ∃ name ∈ names item, ¬ Text.IsName name := by
      simp only [List.any_eq_true, Text.isBlankText_eq_true_iff]
    simp only [checkNames, firstAt_cons_iff]
    split
    next hblank =>
      rw [hany] at hblank
      constructor
      · intro h
        cases h
        exact ⟨0, item, .inl ⟨hblank, rfl, rfl⟩, rfl⟩
      · rintro ⟨_, _, ⟨-, rfl, rfl⟩ | ⟨hnamed, -⟩, rfl⟩
        · rfl
        · exact absurd hblank hnamed
    next hnamed =>
      rw [hany] at hnamed
      simp only [ih, Nat.add_right_comm index 1]
      constructor
      · rintro ⟨j, item', hfirst, rfl⟩
        exact ⟨j + 1, item', .inr ⟨hnamed, j, rfl, hfirst⟩, rfl⟩
      · rintro ⟨_, item', ⟨hblank, -⟩ | ⟨-, j, rfl, hfirst⟩, rfl⟩
        · exact absurd hblank hnamed
        · exact ⟨j, item', hfirst, rfl⟩

end Names

/-- The parts of a description that need a name have one. -/
structure Named (d : Description) : Prop where
  component : Text.IsName d.component.name
  parameters : ∀ p ∈ d.parameters, Text.IsName p.name
  points : ∀ p ∈ d.points, ∀ name ∈ p.names, Text.IsName name

/-- A fault of names in a description: the component goes before the parameters, and these go
before the connection points. -/
inductive Unnamed (d : Description) : Error → Prop where
  | component : ¬ Text.IsName d.component.name → Unnamed d (.missingField "component.name")
  | parameter {j : Nat} {p : Parameter.Declaration} : Text.IsName d.component.name →
      FirstAt (fun _ p => ¬ Text.IsName p.name) d.parameters j p →
      Unnamed d (.missingField s!"parameter[{j}].name")
  | point {j : Nat} {p : Declaration} : Text.IsName d.component.name →
      (∀ p ∈ d.parameters, Text.IsName p.name) →
      FirstAt (fun _ p => ∃ name ∈ p.names, ¬ Text.IsName name) d.points j p →
      Unnamed d (.missingField s!"connection_point[{j}].name")

variable {d : Description}

theorem check_eq (d : Description) : d.check =
    if Text.isBlankText d.component.name then .error (.missingField "component.name")
    else
      checkNames (fun p => [p.name]) (fun i => s!"parameter[{i}].name") 0 d.parameters >>=
        fun _ => checkNames Declaration.names (fun i => s!"connection_point[{i}].name") 0
          d.points := by
  unfold check
  cases Text.isBlankText d.component.name <;> rfl

theorem check_eq_ok_iff {u : Unit} : d.check = .ok u ↔ d.Named := by
  rw [check_eq]
  split
  next hblank =>
    simp only [reduceCtorEq, false_iff]
    rintro ⟨hcomponent, -, -⟩
    exact Text.isBlankText_eq_true_iff.mp hblank hcomponent
  next hcomponent =>
    simp only [Text.isBlankText_eq_true_iff, not_not] at hcomponent
    simp only [bind_eq_ok_iff, checkNames_eq_ok_iff, List.forall_mem_singleton]
    constructor
    · rintro ⟨_, hparameters, hpoints⟩; exact ⟨hcomponent, hparameters, hpoints⟩
    · rintro ⟨-, hparameters, hpoints⟩; exact ⟨(), hparameters, hpoints⟩

theorem check_eq_error_iff : d.check = .error e ↔ d.Unnamed e := by
  rw [check_eq]
  split
  next hblank =>
    rw [Text.isBlankText_eq_true_iff] at hblank
    constructor
    · intro h; cases h; exact .component hblank
    · rintro (_ | ⟨hcomponent, -⟩ | ⟨hcomponent, -, -⟩)
      · rfl
      · exact absurd hcomponent hblank
      · exact absurd hcomponent hblank
  next hcomponent =>
    simp only [Text.isBlankText_eq_true_iff, not_not] at hcomponent
    simp only [bind_eq_error_iff, checkNames_eq_ok_iff, checkNames_eq_error_iff,
      List.mem_singleton, exists_eq_left, forall_eq, Nat.zero_add]
    constructor
    · rintro (⟨j, p, hfirst, rfl⟩ | ⟨-, hparameters, j, p, hfirst, rfl⟩)
      · exact .parameter hcomponent hfirst
      · exact .point hcomponent hparameters hfirst
    · rintro (hblank | ⟨-, hfirst⟩ | ⟨-, hparameters, hfirst⟩)
      · exact absurd hcomponent hblank
      · exact .inl ⟨_, _, hfirst, rfl⟩
      · exact .inr ⟨(), hparameters, _, _, hfirst, rfl⟩

namespace Draft

variable {draft : Draft}

/-- The description with the parts of the draft and the given connection points. -/
def describe (draft : Draft) (points : List Declaration) : Description :=
  ⟨draft.component, draft.parameters, points, draft.overrides⟩

/-- Every table of the draft is read, and everything that needs a name has one. -/
structure Complete (draft : Draft) : Prop where
  component : Text.IsName draft.component.name
  parameters : ∀ p ∈ draft.parameters, Text.IsName p.name
  points : ∀ j fs, draft.points[j]? = some fs →
    ∃ d, PointTable.declaration j fs = .ok d ∧ ∀ name ∈ d.names, Text.IsName name

/-- What a draft is refused for: the first table that cannot be read, or else the first name
that is blank. -/
inductive Refuses (draft : Draft) : Error → Prop where
  | table {j : Nat} {fs : Fields} {e : Error} :
      FirstAt (fun j fs => ∀ d, PointTable.declaration j fs ≠ .ok d) draft.points j fs →
      PointTable.declaration j fs = .error e → Refuses draft e
  | name {points : List Declaration} {e : Error} : TablesRead 0 draft.points points →
      (draft.describe points).Unnamed e → Refuses draft e

theorem ofDraft_eq (draft : Draft) : ofDraft draft =
    declarations 0 draft.points >>= fun points =>
      (draft.describe points).check >>= fun _ => .ok (draft.describe points) := rfl

theorem ofDraft_eq_ok_iff : ofDraft draft = .ok d ↔
    TablesRead 0 draft.points d.points ∧ d = draft.describe d.points ∧ d.Named := by
  simp only [ofDraft_eq, bind_eq_ok_iff, declarations_eq_ok_iff, check_eq_ok_iff,
    Except.ok.injEq]
  constructor
  · rintro ⟨points, hread, _, hnamed, rfl⟩; exact ⟨hread, rfl, hnamed⟩
  · rintro ⟨hread, hd, hnamed⟩; exact ⟨d.points, hread, (), hd ▸ hnamed, hd.symm⟩

theorem ofDraft_eq_error_iff : ofDraft draft = .error e ↔ draft.Refuses e := by
  simp only [ofDraft_eq, bind_eq_error_iff, declarations_eq_ok_iff, declarations_eq_error_iff,
    check_eq_error_iff, reduceCtorEq, and_false, exists_false, or_false, Nat.zero_add]
  constructor
  · rintro (⟨j, fs, hfirst, he⟩ | ⟨points, hread, hunnamed⟩)
    · exact .table hfirst he
    · exact .name hread hunnamed
  · rintro (⟨hfirst, he⟩ | ⟨hread, hunnamed⟩)
    · exact .inl ⟨_, _, hfirst, he⟩
    · exact .inr ⟨_, hread, hunnamed⟩

theorem exists_ofDraft_iff : (∃ d, ofDraft draft = .ok d) ↔ draft.Complete := by
  simp only [ofDraft_eq_ok_iff]
  constructor
  · rintro ⟨d, ⟨-, hread⟩, hd, hcomponent, hparameters, hpoints⟩
    rw [hd] at hcomponent hparameters
    refine ⟨hcomponent, hparameters, fun j fs hfs => ?_⟩
    obtain ⟨p, hp, hdecl⟩ := hread j fs hfs
    rw [Nat.zero_add] at hdecl
    exact ⟨p, hdecl, hpoints p (List.mem_of_getElem? hp)⟩
  · rintro ⟨hcomponent, hparameters, hpoints⟩
    cases hdecls : declarations 0 draft.points with
    | error e =>
      obtain ⟨j, fs, ⟨hfs, hfails, -⟩, -⟩ := declarations_eq_error_iff.mp hdecls
      obtain ⟨d, hd, -⟩ := hpoints j fs hfs
      rw [Nat.zero_add] at hfails
      exact absurd hd (hfails d)
    | ok points =>
      have htables : TablesRead 0 draft.points points := declarations_eq_ok_iff.mp hdecls
      refine ⟨draft.describe points, htables, rfl, hcomponent, hparameters, fun p hp => ?_⟩
      obtain ⟨hlength, hread⟩ := htables
      obtain ⟨j, hp⟩ := List.mem_iff_getElem?.mp hp
      have hj : j < draft.points.length := hlength ▸ (List.getElem?_eq_some_iff.mp hp).1
      have hfs : draft.points[j]? = some draft.points[j] := List.getElem?_eq_getElem hj
      obtain ⟨d, hd, hdecl⟩ := hread j _ hfs
      obtain rfl : d = p := Option.some.inj (hd.symm.trans hp)
      obtain ⟨d', hdecl', hnamed⟩ := hpoints j _ hfs
      rw [Nat.zero_add, hdecl', Except.ok.injEq] at hdecl
      rwa [← hdecl]

end Draft

/-- Whatever the reader, a text that it makes a draft of gives the description exactly when every
table is read and no name is blank. The description has the parts of the draft, each connection
point read from the table at its index. A refusal is the first fault, stage by stage. -/
theorem load_completes_or_refuses {read? : String → Option Draft} {text : String} {draft : Draft}
    (h : read? text = some draft) :
    ((∃ d, load read? text = .ok d) ↔ draft.Complete) ∧
      (∀ d, load read? text = .ok d →
        d.component = draft.component ∧ d.parameters = draft.parameters ∧
        TablesRead 0 draft.points d.points ∧ d.overrides = draft.overrides) ∧
      ∀ e, load read? text = .error e ↔ draft.Refuses e := by
  have htext : load read? text = ofDraft draft := by rw [load, h]
  rw [htext]
  refine ⟨Draft.exists_ofDraft_iff, fun d hd => ?_, fun _ => Draft.ofDraft_eq_error_iff⟩
  obtain ⟨hread, hparts, -⟩ := Draft.ofDraft_eq_ok_iff.mp hd
  rw [hparts]
  exact ⟨rfl, rfl, hread, rfl⟩

/-- A component without a name, before a table of an unknown kind: the table is reported. -/
def twoFaults : String :=
  "[component]\nname=' '\n[[connection_point]]\nkind='Clock'\nname='Clk'\n"
    ++ "[[connection_point]]\nkind='Bus'\n"

def twoFaultsDraft : Draft where
  component := { name := " " }
  parameters := []
  points := [[("kind", .text "Clock"), ("name", .text "Clk")], [("kind", .text "Bus")]]
  overrides := []

theorem load_completes_or_refuses_twoFaults :
    Draft.ofText? twoFaults = some twoFaultsDraft ∧
      ofText twoFaults = .error (.point (.unknownKind "Bus")) := by
  have hdraft : Draft.ofText? twoFaults = some twoFaultsDraft := by cbv
  refine ⟨hdraft, ((load_completes_or_refuses hdraft).2.2 _).mpr ?_⟩
  have hclock : PointTable.declaration 0 [("kind", .text "Clock"), ("name", .text "Clk")]
      = .ok (.clock { name := "Clk" }) := rfl
  have hbus : PointTable.declaration 1 [("kind", .text "Bus")]
      = .error (.point (.unknownKind "Bus")) := rfl
  refine .table (j := 1) ⟨rfl, by simp [hbus], fun i hi fs hfs => ?_⟩ hbus
  obtain rfl : i = 0 := by omega
  cases hfs
  simp [hclock]

end Description

end Interconnect
