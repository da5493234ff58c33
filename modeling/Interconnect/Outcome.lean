/-! # Outcomes

An operation on a state answers with a value or an error, and leaves a state either
way. Both are kept in sight, so that what a failure leaves behind can be stated.
-/

namespace Interconnect

/-- The answer of an operation and the state that it leaves. -/
structure Outcome (σ ε α : Type) where
  state : σ
  answer : Except ε α

namespace Outcome

variable {σ τ ε δ α : Type}

def succeed (state : σ) (value : α) : Outcome σ ε α := ⟨state, .ok value⟩

def fail (state : σ) (error : ε) : Outcome σ ε α := ⟨state, .error error⟩

/-- The new state and the value on success, the old state on failure. -/
def commit (state : σ) : Except ε (σ × α) → Outcome σ ε α
  | .ok (next, value) => succeed next value
  | .error e => fail state e

/-- The final state of a success; a failure discards it. -/
def toExcept (o : Outcome σ ε α) : Except ε σ :=
  match o.answer with
  | .ok _ => .ok o.state
  | .error e => .error e

def mapError (f : ε → δ) (o : Outcome σ ε α) : Outcome σ δ α :=
  ⟨o.state, o.answer.mapError f⟩

def mapState (f : σ → τ) (o : Outcome σ ε α) : Outcome τ ε α := ⟨f o.state, o.answer⟩

/-- Runs one operation for each item, in order. The first failure ends the run and
keeps what the operations before it did. -/
def forEach (step : σ → α → Outcome σ ε Unit) (state : σ) : List α → Outcome σ ε Unit
  | [] => succeed state ()
  | item :: items =>
    let o := step state item
    match o.answer with
    | .ok () => forEach step o.state items
    | .error e => fail o.state e

@[simp] theorem answer_mapState (f : σ → τ) (o : Outcome σ ε α) :
    (o.mapState f).answer = o.answer := rfl

@[simp] theorem state_mapState (f : σ → τ) (o : Outcome σ ε α) :
    (o.mapState f).state = f o.state := rfl

@[simp] theorem toExcept_succeed (state : σ) (value : α) :
    (succeed state value : Outcome σ ε α).toExcept = .ok state := rfl

@[simp] theorem toExcept_fail (state : σ) (error : ε) :
    (fail state error : Outcome σ ε α).toExcept = .error error := rfl

@[simp] theorem forEach_nil (step : σ → α → Outcome σ ε Unit) (state : σ) :
    forEach step state [] = succeed state () := rfl

theorem forEach_cons (step : σ → α → Outcome σ ε Unit) (state : σ) (item : α)
    (items : List α) :
    forEach step state (item :: items)
      = match (step state item).answer with
        | .ok () => forEach step (step state item).state items
        | .error e => fail (step state item).state e := rfl

theorem forEach_append (step : σ → α → Outcome σ ε Unit) (state : σ) (xs ys : List α) :
    forEach step state (xs ++ ys)
      = match (forEach step state xs).answer with
        | .ok () => forEach step (forEach step state xs).state ys
        | .error e => fail (forEach step state xs).state e := by
  induction xs generalizing state with
  | nil => rfl
  | cons x xs ih =>
    rw [List.cons_append, forEach_cons, forEach_cons]
    cases h : (step state x).answer with
    | ok => exact ih _
    | error e => rfl

theorem toExcept_eq_ok_iff {o : Outcome σ ε Unit} {s : σ} :
    o.toExcept = .ok s ↔ o.answer = .ok () ∧ o.state = s := by
  unfold toExcept
  cases o.answer <;> simp

theorem exists_of_answer_commit {s : σ} {x : Except ε (σ × α)} {a : α}
    (h : (commit s x).answer = .ok a) : ∃ s', x = .ok (s', a) ∧ (commit s x).state = s' := by
  cases x with
  | error e => cases h
  | ok v => cases h; exact ⟨v.1, rfl, rfl⟩

theorem state_commit_of_error {s : σ} {x : Except ε (σ × α)} {e : ε}
    (h : (commit s x).answer = .error e) : (commit s x).state = s := by
  cases x with
  | error e => rfl
  | ok v => cases h

theorem toExcept_mapState (f : σ → τ) (o : Outcome σ ε Unit) :
    (o.mapState f).toExcept = o.toExcept.map f := by
  unfold toExcept mapState
  cases o.answer <;> rfl

/-- A run that is simulated step by step is simulated as a whole. -/
theorem forEach_mapState {step : σ → α → Outcome σ ε Unit} {step' : τ → α → Outcome τ ε Unit}
    {f : σ → τ} (h : ∀ s x, step' (f s) x = (step s x).mapState f) (s : σ) (xs : List α) :
    forEach step' (f s) xs = (forEach step s xs).mapState f := by
  induction xs generalizing s with
  | nil => rfl
  | cons x xs ih =>
    rw [forEach_cons, forEach_cons, h, answer_mapState, state_mapState]
    cases (step s x).answer with
    | error e => rfl
    | ok => exact ih _

theorem forEach_preserves {step : σ → α → Outcome σ ε Unit} {P : σ → Prop}
    (h : ∀ s x, P s → P (step s x).state) {s : σ} (hs : P s) (xs : List α) :
    P (forEach step s xs).state := by
  induction xs generalizing s with
  | nil => exact hs
  | cons x xs ih =>
    rw [forEach_cons]
    cases (step s x).answer with
    | error e => exact h s x hs
    | ok => exact ih (h s x hs)

theorem toExcept_forEach_append {step : σ → α → Outcome σ ε Unit} {s t : σ} {xs : List α}
    (h : (forEach step s xs).toExcept = .ok t) (ys : List α) :
    (forEach step s (xs ++ ys)).toExcept = (forEach step t ys).toExcept := by
  obtain ⟨hok, hstate⟩ := toExcept_eq_ok_iff.mp h
  rw [forEach_append, hok, hstate]

end Outcome

end Interconnect
