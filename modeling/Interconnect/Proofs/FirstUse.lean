import Interconnect.Proofs.Assignment
import Interconnect.Proofs.Elaboration
import Interconnect.Proofs.Symbols

/-! # First uses over a session

The elaborations of a session report their bindings one after another. In the whole report
the first binding of a derived parameter is its first use, and no other binding is one. A
parameter is marked as consumed when it is derived and the report has a binding of it. This
holds whatever the session does between the elaborations, as long as nobody else marks
parameters.
-/

namespace Interconnect

open Parameter (Overrides Table)
open Point (Declaration)

theorem exists_of_append_eq_append_cons {α : Type} {xs ys before after : List α} {x : α}
    (h : xs ++ ys = before ++ x :: after) :
    (∃ rest, xs = before ++ x :: rest) ∨
      ∃ middle, before = xs ++ middle ∧ ys = middle ++ x :: after := by
  rcases List.append_eq_append_iff.mp h with ⟨middle, hbefore, hys⟩ | ⟨rest, hxs, hafter⟩
  · exact .inr ⟨middle, hbefore, hys⟩
  · cases rest with
    | nil => exact .inr ⟨[], by simpa using hxs.symm, hafter.symm⟩
    | cons y rest =>
      obtain ⟨rfl, -⟩ := List.cons.inj hafter
      exact .inl ⟨rest, hxs⟩

theorem Registry.exists_of_mem_bindings {t : Table} {ds : List Declaration} {r : Registry}
    (hr : ofDeclarations t.environment ds = .ok r) {b : Binding} (hb : b ∈ r.bindings t) :
    ∃ p, t.get? b.parameter = some p ∧ b.derived = p.derived := by
  obtain ⟨field, hfield, he⟩ := exists_field_of_mem_bind hb
  obtain ⟨p, hp⟩ := exists_of_mem_symbolicFields hr hfield
  have hparameter : b.parameter = field.2.2 := congrArg Binding.parameter he
  have hderived : b.derived = t.derives field.2.2 := congrArg Binding.derived he
  exact ⟨p, by rw [hparameter, hp], by rw [hderived, Table.derives, hp, Option.any_some]⟩

namespace Parameter.Table

/-- The parameters of a table are in the later table with their marks. What was added since
has no mark. -/
structure KeepsMarks (t t' : Table) : Prop where
  kept : ∀ name p, t.get? name = some p →
    ∃ p', t'.get? name = some p' ∧ p'.derived = p.derived ∧ p'.consumed = p.consumed
  added : ∀ name p', t.get? name = none → t'.get? name = some p' → p'.consumed = false

theorem KeepsMarks.refl (t : Table) : t.KeepsMarks t where
  kept _ p hp := ⟨p, hp, rfl, rfl⟩
  added _ _ hnone hp := nomatch hnone.symm.trans hp

theorem KeepsMarks.trans {t t' t'' : Table} (h : t.KeepsMarks t') (h' : t'.KeepsMarks t'') :
    t.KeepsMarks t'' where
  kept name p hp := by
    obtain ⟨p', hp', hd, hc⟩ := h.kept name p hp
    obtain ⟨p'', hp'', hd', hc'⟩ := h'.kept name p' hp'
    exact ⟨p'', hp'', hd'.trans hd, hc'.trans hc⟩
  added name p'' hnone hp'' := by
    cases hp : t'.get? name with
    | none => exact h'.added name p'' hp hp''
    | some p' =>
      obtain ⟨q, hq, -, hc⟩ := h'.kept name p' hp
      obtain rfl := Option.some.inj (hq.symm.trans hp'')
      exact hc.trans (h.added name p' hnone hp)

theorem keepsMarks_add (t : Table) (d : Declaration) : t.KeepsMarks (t.add d).state := by
  obtain ⟨p, hfresh, hp, ha⟩ | ⟨e, ha⟩ := add_cases t d
  · have hunmarked : p.consumed = false := by
      rw [← unmarked_of_ofDeclaration hp]
      rfl
    have hnone : t.get? d.name = none := Dictionary.get?_of_notMem hfresh
    have hget (other : String) := Dictionary.get?_insert_of_notMem hfresh p other
    rw [ha, Outcome.succeed]
    constructor
    · intro name q hq
      have hne : name ≠ d.name := by
        rintro rfl
        rw [hnone] at hq
        cases hq
      exact ⟨q, by rw [hget, if_neg hne, hq], rfl, rfl⟩
    · intro name q hnone hq
      rw [hget, hnone] at hq
      split at hq
      · cases hq; exact hunmarked
      · cases hq
  · rw [ha]
    exact .refl t

theorem keepsMarks_update (t : Table) (name : String) (raw : Scalar) :
    t.KeepsMarks (t.update name raw).state := by
  obtain ⟨_, v, -, -, hu⟩ | ⟨e, hu⟩ := update_cases t name raw
  · have hget (other : String) := Dictionary.get?_modify t name other (·.assign v)
    rw [hu, Outcome.succeed]
    constructor
    · intro other p hp
      refine ⟨_, by rw [hget, hp]; rfl, ?_, ?_⟩ <;> split <;> rfl
    · intro other p hnone hp
      rw [hget, hnone] at hp
      cases hp
  · rw [hu]
    exact .refl t

theorem keepsMarks_applyOverrides (t : Table) (overrides : Overrides) :
    t.KeepsMarks (t.applyOverrides overrides).state :=
  Outcome.forEach_preserves (P := t.KeepsMarks)
    (fun s o hs => hs.trans (keepsMarks_update s o.1 o.2)) (.refl t) overrides

/-- A list of bindings accounts for the marks of a table. -/
structure Accounts (t : Table) (bs : List Binding) : Prop where
  known : ∀ b ∈ bs, ∃ p, t.get? b.parameter = some p ∧ b.derived = p.derived
  firstUse : ∀ before b after, bs = before ++ b :: after →
    (b.firstUse = true ↔ b.derived = true ∧ ∀ c ∈ before, c.parameter ≠ b.parameter)
  consumed : ∀ name p, t.get? name = some p →
    (p.consumed = true ↔ p.derived = true ∧ ∃ b ∈ bs, b.parameter = name)

namespace Accounts

variable {t t' : Table} {bs : List Binding} {r : Registry} {ds : List Point.Declaration}

theorem empty : Accounts ({} : Table) [] where
  known := nofun
  firstUse := by simp
  consumed _ _ hp := by cases hp

theorem keepsMarks (h : t.Accounts bs) (hk : t.KeepsMarks t') : t'.Accounts bs where
  known b hb := by
    obtain ⟨p, hp, hd⟩ := h.known b hb
    obtain ⟨p', hp', hd', -⟩ := hk.kept _ p hp
    exact ⟨p', hp', hd.trans hd'.symm⟩
  firstUse := h.firstUse
  consumed name p' hp' := by
    cases hp : t.get? name with
    | some p =>
      obtain ⟨q, hq, hd, hc⟩ := hk.kept name p hp
      obtain rfl := Option.some.inj (hq.symm.trans hp')
      rw [hd, hc]
      exact h.consumed name p hp
    | none =>
      have hnot : ¬ ∃ b ∈ bs, b.parameter = name := by
        rintro ⟨b, hb, rfl⟩
        obtain ⟨p, hp', -⟩ := h.known b hb
        exact nomatch hp.symm.trans hp'
      simp [hk.added name p' hp hp', hnot]

theorem unread_iff (h : t.Accounts bs) {name : String} {p : Parameter}
    (hp : t.get? name = some p) :
    t.unread name = true ↔ p.derived = true ∧ ∀ b ∈ bs, b.parameter ≠ name := by
  have hc := h.consumed name p hp
  simp only [unread, hp, Option.any_some, Bool.and_eq_true, Bool.not_eq_true']
  refine and_congr_right fun hd => ?_
  rw [← Bool.not_eq_true, hc]
  simp [hd]

theorem elaborate (h : t.Accounts bs)
    (hr : Registry.ofDeclarations t.environment ds = .ok r) :
    (t.consumed (Registry.firstUses (r.bindings t))).Accounts (bs ++ r.bindings t) := by
  have hget (name : String) := get?_consumed
    (fun _ hname => Registry.contains_of_mem_firstUses (r := r) (t := t) hname) name
  constructor
  case known =>
    intro b hb
    obtain ⟨p, hp, hd⟩ : ∃ p, t.get? b.parameter = some p ∧ b.derived = p.derived := by
      rcases List.mem_append.mp hb with hb | hb
      · exact h.known b hb
      · exact Registry.exists_of_mem_bindings hr hb
    refine ⟨_, by rw [hget, hp]; rfl, ?_⟩
    split <;> exact hd
  case firstUse =>
    intro before b after he
    rcases exists_of_append_eq_append_cons he with ⟨rest, hold⟩ | ⟨middle, rfl, hnew⟩
    · exact h.firstUse before b rest hold
    · obtain ⟨p, hp, hd⟩ := Registry.exists_of_mem_bindings hr (b := b) (by simp [hnew])
      rw [Registry.firstUse_iff_of_bind hnew, h.unread_iff hp, hd, List.forall_mem_append]
      simp [and_assoc]
  case consumed =>
    intro name p' hp'
    rw [hget] at hp'
    obtain ⟨p, hp, rfl⟩ := Option.map_eq_some_iff.mp hp'
    have hold := h.consumed name p hp
    by_cases hm : name ∈ Registry.firstUses (r.bindings t)
    · obtain ⟨hu, b, hb, hname⟩ := Registry.mem_firstUses_bindings_iff.mp hm
      obtain ⟨hd, -⟩ := (h.unread_iff hp).mp hu
      rw [if_pos hm]
      exact iff_of_true rfl ⟨hd, b, List.mem_append_right bs hb, hname⟩
    · rw [if_neg hm, hold]
      refine and_congr_right fun hd => ⟨?_, ?_⟩
      · rintro ⟨b, hb, hname⟩
        exact ⟨b, List.mem_append_left _ hb, hname⟩
      · rintro ⟨b, hb, hname⟩
        rcases List.mem_append.mp hb with hb | hb
        · exact ⟨b, hb, hname⟩
        · by_contra hnone
          have hu : t.unread name = true :=
            (h.unread_iff hp).mpr ⟨hd, fun c hc he => hnone ⟨c, hc, he⟩⟩
          exact hm (Registry.mem_firstUses_bindings_iff.mpr ⟨hu, b, hb, hname⟩)

end Accounts

end Parameter.Table

namespace Session

open Registry (Built)

/-- The bindings that an operation reports: those of an elaboration that succeeds. -/
def reports (s : Session) (o : Operation) : List Binding :=
  match (s.perform o).answer with
  | .ok bs => bs
  | .error _ => []

/-- The bindings that a list of operations reports, in order. -/
def reported (s : Session) : List Operation → List Binding
  | [] => []
  | o :: os => s.reports o ++ (s.perform o).state.reported os

variable {s : Session} {ds : List Declaration} {bs : List Binding}

theorem reports_eq_nil {o : Operation} (h : o ≠ .elaborate) : s.reports o = [] := by
  have hparameters (o : Outcome Table Parameter.Error Unit) :
      (match (s.onParameters o).answer with | .ok bs => bs | .error _ => []) = [] := by
    unfold onParameters
    cases o.answer <;> rfl
  have hpoints (o : Outcome Registry Point.Error Unit) :
      (match (s.onPoints o).answer with | .ok bs => bs | .error _ => []) = [] := by
    unfold onPoints
    cases o.answer <;> rfl
  cases o with
  | elaborate => exact absurd rfl h
  | register | refresh => exact hpoints _
  | add | addHeading | assign | applyOverrides | markConsumed => exact hparameters _

/-- An elaboration that fails reports nothing and changes nothing; any other reports the
bindings of the points as they are resolved now. -/
theorem accounts_elaborate (hb : Built s.points ds) (h : s.parameters.Accounts bs) :
    (s.perform .elaborate).state.parameters.Accounts (bs ++ s.reports .elaborate) := by
  cases hr : Registry.ofDeclarations s.parameters.environment ds with
  | error e =>
    have hrefresh : s.points.refresh s.parameters.environment = .fail s.points e := by
      rw [hb.refresh_eq, hr]
      rfl
    have helaborate : s.perform .elaborate = .fail s e := by
      simp only [perform, Registry.elaborate, hrefresh]
      rfl
    rw [reports, helaborate]
    simpa [Outcome.fail] using h
  | ok r =>
    have hrefresh : s.points.refresh s.parameters.environment = .succeed r () := by
      rw [hb.refresh_eq, hr]
      rfl
    have helaborate : s.perform .elaborate = .succeed
        ⟨s.parameters.consumed (Registry.firstUses (r.bindings s.parameters)), r⟩
        (r.bindings s.parameters) := by
      simp only [perform, Registry.elaborate_of_refresh_ok hrefresh]
      rfl
    rw [reports, helaborate]
    exact h.elaborate hr

theorem accounts_perform (hb : Built s.points ds) (h : s.parameters.Accounts bs)
    {o : Operation} (ho : ∀ name, o ≠ .markConsumed name) :
    (s.perform o).state.parameters.Accounts (bs ++ s.reports o) := by
  by_cases he : o = .elaborate
  · subst he
    exact accounts_elaborate hb h
  · rw [reports_eq_nil he, List.append_nil]
    cases o with
    | elaborate => exact absurd rfl he
    | markConsumed name => exact absurd rfl (ho name)
    | register | refresh => exact h
    | add d | addHeading name => exact h.keepsMarks (Table.keepsMarks_add _ _)
    | assign name raw => exact h.keepsMarks (Table.keepsMarks_update _ name raw)
    | applyOverrides overrides =>
      exact h.keepsMarks (Table.keepsMarks_applyOverrides _ overrides)

theorem accounts_run (hb : Built s.points ds) (h : s.parameters.Accounts bs)
    {os : List Operation} (ho : ∀ name, .markConsumed name ∉ os) :
    (s.run os).parameters.Accounts (bs ++ s.reported os) := by
  induction os generalizing s ds bs with
  | nil => rwa [reported, List.append_nil]
  | cons o os ih =>
    have hstep : ∀ name, o ≠ .markConsumed name := fun name he => ho name (by simp [he])
    rw [reported, ← List.append_assoc]
    exact ih (built_perform hb o) (accounts_perform hb h hstep) fun name hm =>
      ho name (List.mem_cons_of_mem o hm)

/-- Whatever a session does, short of marking parameters by itself, the first binding that it
reports of a derived parameter is the first use, no other is, and the parameters consumed at
the end are the derived ones that were reported. -/
theorem reported_firstUses {os : List Operation} (h : ∀ name, .markConsumed name ∉ os) :
    ((start {}).run os).parameters.Accounts ((start {}).reported os) :=
  have hbuilt : Built (start {}).points [] := .nil
  have hnone : (start {}).parameters.Accounts [] := .empty
  accounts_run hbuilt hnone h

/-- A session with three elaborations. The second one fails, and the last one finds a sink
more. -/
def resumedSession : List Operation :=
  [ .add { Showcase.natural "WIDTH" 8 with derived := true },
    .register (.sink
      { name := "In", clock := "Clk", reset := "Reset"
        data := { name := "D", width := .text "WIDTH" } }),
    .elaborate,
    .assign "WIDTH" (.number 0),
    .elaborate,
    .assign "WIDTH" (.number 16),
    .register (.sink
      { name := "Next", clock := "Clk", reset := "Reset"
        data := { name := "D", width := .text "WIDTH", symbolWidth := some (.text "WIDTH") } }),
    .elaborate ]

theorem reported_firstUses_resumedSession :
    (∀ name, .markConsumed name ∉ resumedSession) ∧
      (start {}).reported resumedSession =
        [ ⟨"In", "data width", "WIDTH", true, true⟩,
          ⟨"In", "data width", "WIDTH", true, false⟩,
          ⟨"Next", "data width", "WIDTH", true, false⟩,
          ⟨"Next", "symbol width", "WIDTH", true, false⟩ ] ∧
      ((start {}).run resumedSession).parameters.Accounts
        ((start {}).reported resumedSession) :=
  have unmarked : ∀ name, .markConsumed name ∉ resumedSession := by simp [resumedSession]
  ⟨unmarked, rfl, reported_firstUses unmarked⟩

end Session

end Interconnect
