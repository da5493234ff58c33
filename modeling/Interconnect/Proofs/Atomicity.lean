import Interconnect.Proofs.Session
import Interconnect.Proofs.Replay

/-! # Failures keep the state

An operation that fails leaves the parameters and the points as they were, whichever part
of it failed. A list of overrides is the exception: it keeps the assignments before the
first that fails.
-/

namespace Interconnect

open Parameter (Overrides Table)

namespace Outcome

variable {σ τ ε δ α : Type} {s : σ} {o : Outcome σ ε α}

/-- A failure leaves the given state. -/
def Atomic (s : σ) (o : Outcome σ ε α) : Prop := ∀ e, o.answer = .error e → o.state = s

theorem atomic_succeed (state : σ) (value : α) : Atomic s (succeed state value : Outcome σ ε α) :=
  nofun

theorem atomic_fail (e : ε) : Atomic s (fail s e : Outcome σ ε α) := fun _ _ => rfl

theorem atomic_commit (x : Except ε (σ × α)) : Atomic s (commit s x) :=
  fun _ => state_commit_of_error

theorem Atomic.mapError (h : Atomic s o) (f : ε → δ) : Atomic s (o.mapError f) := by
  intro e he
  cases ha : o.answer with
  | ok a => rw [Outcome.mapError, ha] at he; cases he
  | error e' => exact h e' ha

theorem Atomic.mapState (h : Atomic s o) (f : σ → τ) : Atomic (f s) (o.mapState f) :=
  fun e he => congrArg f (h e he)

/-- A run of atomic steps that fails has stopped at the first step that fails, in the state
that the steps before it have reached. -/
theorem exists_of_answer_forEach {step : σ → α → Outcome σ ε Unit}
    (h : ∀ s x, Atomic s (step s x)) {xs : List α} {e : ε}
    (he : (forEach step s xs).answer = .error e) :
    ∃ before x after, xs = before ++ x :: after ∧
      forEach step s before = succeed (forEach step s xs).state () ∧
      (step (forEach step s xs).state x).answer = .error e := by
  induction xs generalizing s with
  | nil => cases he
  | cons x xs ih =>
    rw [forEach_cons] at he ⊢
    cases hx : (step s x).answer with
    | error e' =>
      rw [hx] at he
      cases he
      have hs : (step s x).state = s := h s x e hx
      refine ⟨[], x, xs, rfl, ?_, ?_⟩
      · simp only [fail, hs, forEach_nil]
      · simp only [fail, hs, hx]
    | ok =>
      rw [hx] at he
      obtain ⟨before, y, after, rfl, hbefore, hy⟩ := ih he
      refine ⟨x :: before, y, after, rfl, ?_, hy⟩
      rw [forEach_cons, hx]
      exact hbefore

end Outcome

open Outcome (Atomic atomic_succeed atomic_fail atomic_commit)

namespace Parameter.Table

theorem atomic_add (t : Table) (d : Declaration) : (t.add d).Atomic t := by
  unfold add
  split
  · exact atomic_fail _
  · split
    · exact atomic_succeed _ _
    · exact atomic_fail _

theorem atomic_update (t : Table) (name : String) (raw : Scalar) :
    (t.update name raw).Atomic t := by
  unfold update
  split
  · exact atomic_fail _
  · split
    · exact atomic_succeed _ _
    · exact atomic_fail _

theorem exists_of_answer_applyOverrides {t : Table} {overrides : Overrides} {e : Error}
    (he : (t.applyOverrides overrides).answer = .error e) :
    ∃ before w after s, overrides = before ++ w :: after ∧
      t.applyOverrides before = .succeed s () ∧ (s.update w.1 w.2).answer = .error e ∧
      t.applyOverrides overrides = .fail s e := by
  obtain ⟨before, w, after, rfl, hbefore, hw⟩ :=
    Outcome.exists_of_answer_forEach
      (fun (t : Table) (o : String × Scalar) => atomic_update t o.1 o.2) he
  exact ⟨before, w, after, _, rfl, hbefore, hw, Outcome.eq_fail_of_answer he rfl⟩

theorem atomic_markConsumed (t : Table) (name : String) : (t.markConsumed name).Atomic t := by
  unfold markConsumed
  split
  · exact atomic_succeed _ _
  · exact atomic_fail _

theorem answer_forEach_markConsumed {t : Table} {names : List String}
    (h : ∀ name ∈ names, t.contains name) :
    (Outcome.forEach markConsumed t names).answer = .ok () := by
  induction names generalizing t with
  | nil => rfl
  | cons name names ih =>
    rw [List.forall_mem_cons] at h
    have hmark : t.markConsumed name = .succeed (t.modify name consume) () := if_pos h.1
    rw [Outcome.forEach_cons, hmark]
    refine ih fun other hother => ?_
    change (t.modify name consume).contains other
    rw [Dictionary.contains_iff_mem_keys, Dictionary.keys_modify,
      ← Dictionary.contains_iff_mem_keys]
    exact h.2 other hother

end Parameter.Table

namespace Registry

open Point (Declaration)

theorem atomic_register (r : Registry) (t : Table) (d : Declaration) :
    (r.register t.environment d).Atomic r :=
  fun _ => state_register_of_error

theorem atomic_refresh (r : Registry) (t : Table) : (r.refresh t.environment).Atomic r :=
  atomic_commit _

theorem contains_of_mem_bind {t : Table} {used : List String}
    {fields : List (String × String × String)} {b : Binding} (hb : b ∈ bind t used fields)
    (hf : b.firstUse = true) : t.contains b.parameter := by
  induction fields generalizing used with
  | nil => cases hb
  | cons field fields ih =>
    obtain ⟨point, label, key⟩ := field
    rcases List.mem_cons.mp hb with rfl | hb
    · cases hp : t.get? key with
      | none => simp [hp] at hf
      | some p => simp [Dictionary.contains, hp]
    · exact ih hb

theorem contains_of_mem_firstUses {r : Registry} {t : Table} {name : String}
    (h : name ∈ firstUses (r.bindings t)) : t.contains name := by
  obtain ⟨b, hb, rfl⟩ := List.mem_map.mp h
  obtain ⟨hb, hf⟩ := List.mem_filter.mp hb
  exact contains_of_mem_bind hb hf

/-- An elaboration fails only where the refresh does: the marks cannot fail after it. -/
theorem atomic_elaborate (r : Registry) (t : Table) : (r.elaborate t).Atomic (r, t) := by
  cases hr : (r.refresh t.environment).answer with
  | error e =>
    have hstate : (r.refresh t.environment).state = r := atomic_refresh r t e hr
    simp only [elaborate, hr, hstate]
    exact atomic_fail e
  | ok =>
    have hmarked := Table.answer_forEach_markConsumed fun name hname =>
      contains_of_mem_firstUses (r := (r.refresh t.environment).state) (t := t) hname
    simp only [elaborate, hr, hmarked]
    exact atomic_succeed _ _

end Registry

namespace Session

/-- What an operation that fails leaves of a session. -/
inductive LeftBy (s : Session) : Operation → Session → Prop where
  | same {o : Operation} : (∀ overrides, o ≠ .applyOverrides overrides) → LeftBy s o s
  /-- The pairs before the first that fails stay assigned. -/
  | stopped {before after : Overrides} {name : String} {raw : Scalar} {t : Table}
      {e : Parameter.Error} : s.parameters.applyOverrides before = .succeed t () →
      (t.update name raw).answer = .error e →
      LeftBy s (.applyOverrides (before ++ (name, raw) :: after)) { s with parameters := t }

variable {s : Session}

theorem exists_of_answer_onParameters {o : Outcome Table Parameter.Error Unit} {e : Point.Error}
    (h : (s.onParameters o).answer = .error e) : ∃ e', o.answer = .error e' := by
  cases ha : o.answer with
  | ok a => simp [onParameters, ha, Except.mapError, Except.map] at h
  | error e' => exact ⟨e', rfl⟩

theorem atomic_onParameters {o : Outcome Table Parameter.Error Unit} (h : o.Atomic s.parameters) :
    (s.onParameters o).Atomic s := by
  intro e he
  obtain ⟨e', ha⟩ := exists_of_answer_onParameters he
  simp only [onParameters, h e' ha]

theorem atomic_onPoints {o : Outcome Registry Point.Error Unit} (h : o.Atomic s.points) :
    (s.onPoints o).Atomic s := by
  intro e he
  have ha : o.answer = .error e := map_eq_error_iff.mp he
  simp only [onPoints, h e ha]

theorem leftBy_applyOverrides {overrides : Overrides} {e : Point.Error}
    (h : (s.perform (.applyOverrides overrides)).answer = .error e) :
    s.LeftBy (.applyOverrides overrides) (s.perform (.applyOverrides overrides)).state := by
  obtain ⟨_, ha⟩ := exists_of_answer_onParameters h
  obtain ⟨before, ⟨name, raw⟩, after, t, rfl, hbefore, hx, hfail⟩ :=
    Table.exists_of_answer_applyOverrides ha
  have hstate : (s.perform (.applyOverrides (before ++ (name, raw) :: after))).state
      = { s with parameters := t } := by
    rw [perform, onParameters, hfail, Outcome.fail]
  rw [hstate]
  exact .stopped hbefore hx

theorem leftBy_perform {o : Operation} {e : Point.Error} (h : (s.perform o).answer = .error e) :
    s.LeftBy o (s.perform o).state := by
  have hsame (ho : ∀ overrides, o ≠ .applyOverrides overrides) (hs : (s.perform o).Atomic s) :
      s.LeftBy o (s.perform o).state := (hs e h).symm ▸ .same ho
  cases o with
  | applyOverrides overrides => exact leftBy_applyOverrides h
  | add d => exact hsame nofun (atomic_onParameters (Table.atomic_add _ d))
  | addHeading name => exact hsame nofun (atomic_onParameters (Table.atomic_add _ _))
  | assign name raw => exact hsame nofun (atomic_onParameters (Table.atomic_update _ name raw))
  | markConsumed name =>
    exact hsame nofun (atomic_onParameters (Table.atomic_markConsumed _ name))
  | register d => exact hsame nofun (atomic_onPoints (Registry.atomic_register _ _ d))
  | refresh => exact hsame nofun (atomic_onPoints (Registry.atomic_refresh _ _))
  | elaborate => exact hsame nofun ((Registry.atomic_elaborate _ _).mapState _)

end Session

theorem Interface.atomic_update (i : Interface) (overrides : Overrides) :
    (i.update overrides).Atomic i :=
  atomic_commit _

theorem Interface.atomic_elaborate (i : Interface) : i.elaborate.Atomic i :=
  ((Registry.atomic_elaborate i.points i.parameters).mapError Description.Error.point).mapState _

/-- A failed operation on a table, a registry or an interface leaves the state as it was, but
for a list of overrides, which leaves the table with those before the first that fails. -/
theorem failure_keeps_state :
    (∀ (s : Session) (o : Session.Operation) (e : Point.Error),
      (s.perform o).answer = .error e → s.LeftBy o (s.perform o).state) ∧
    (∀ (i : Interface) (overrides : Overrides), (i.update overrides).Atomic i) ∧
    ∀ i : Interface, i.elaborate.Atomic i :=
  ⟨fun _ _ _ => Session.leftBy_perform, Interface.atomic_update, Interface.atomic_elaborate⟩

/-- The second of these values is for a parameter that is not there. -/
def strayDepth : Overrides := [("WIDTH", .number 16), ("NONE", .number 1), ("DEPTH", .number 4)]

/-- The first assignment stays, the second fails, and the third is not made. An interface keeps
none of them. -/
theorem failure_keeps_state_strayDepth :
    (∃ s : Session, s.points = {} ∧
      (s.perform (.applyOverrides strayDepth)).answer
        = .error (.parameter (.unknownParameter "NONE")) ∧
      s.LeftBy (.applyOverrides strayDepth) (s.perform (.applyOverrides strayDepth)).state ∧
      (s.perform (.applyOverrides strayDepth)).state.parameters.values.map
        (fun p => (p.name, p.value)) = [("WIDTH", .natural 16), ("DEPTH", .natural 2)]) ∧
    ∃ i, Interface.resolve Interface.pendingSink [] = .ok i ∧
      (i.update strayDepth).answer = .error (.parameter (.unknownParameter "NONE")) ∧
      (i.update strayDepth).state = i :=
  ⟨⟨.start (Point.exampleTable [Showcase.natural "WIDTH" 8, Showcase.natural "DEPTH" 2]), rfl, rfl,
      failure_keeps_state.1 _ _ _ rfl, rfl⟩,
    _, rfl, rfl, failure_keeps_state.2.1 _ strayDepth _ rfl⟩

end Interconnect
