import Interconnect.Outcome
import Mathlib.Data.List.Forall2

/-! # Inversion of partial computations

When a computation that can fail has a value, so has every computation that it is made
of. The laws are stated as equivalences, so that they open a success and build one. A
traversal of a list fails with the first failure of an item.
-/

namespace Interconnect

variable {ε δ α β γ : Type}

theorem bind_eq_ok_iff {x : Except ε α} {f : α → Except ε β} {b : β} :
    x >>= f = .ok b ↔ ∃ a, x = .ok a ∧ f a = .ok b := by
  cases x <;> simp [bind, Except.bind]

theorem bind_eq_error_iff {x : Except ε α} {f : α → Except ε β} {e : ε} :
    x >>= f = .error e ↔ x = .error e ∨ ∃ a, x = .ok a ∧ f a = .error e := by
  cases x <;> simp [bind, Except.bind]

theorem map_eq_ok_iff {x : Except ε α} {f : α → β} {b : β} :
    x.map f = .ok b ↔ ∃ a, x = .ok a ∧ f a = b := by
  cases x <;> simp [Except.map]

theorem map_eq_error_iff {x : Except ε α} {f : α → β} {e : ε} :
    x.map f = .error e ↔ x = .error e := by
  cases x <;> simp [Except.map]

theorem mapError_eq_ok_iff {x : Except ε α} {f : ε → δ} {a : α} :
    x.mapError f = .ok a ↔ x = .ok a := by
  cases x <;> simp [Except.mapError]

theorem mapM_singleton (f : α → Except ε β) (x : α) : [x].mapM f = (f x).map ([·]) := by
  rw [List.mapM_cons, List.mapM_nil]
  cases f x <;> rfl

theorem mapM_eq_ok_iff {f : α → Except ε β} {xs : List α} {ys : List β} :
    xs.mapM f = .ok ys ↔ List.Forall₂ (fun x y => f x = .ok y) xs ys := by
  induction xs generalizing ys with
  | nil => simp [pure, Except.pure, eq_comm]
  | cons x xs ih =>
    simp only [List.mapM_cons, bind_eq_ok_iff, ih, List.forall₂_cons_left_iff, pure,
      Except.pure, Except.ok.injEq]
    constructor
    · rintro ⟨y, hy, ys, hys, rfl⟩; exact ⟨y, ys, hy, hys, rfl⟩
    · rintro ⟨y, ys, hy, hys, rfl⟩; exact ⟨y, hy, ys, hys, rfl⟩

theorem mapM_cons_eq_error_iff {f : α → Except ε β} {x : α} {xs : List α} {e : ε} :
    (x :: xs).mapM f = .error e ↔
      f x = .error e ∨ (∃ y, f x = .ok y) ∧ xs.mapM f = .error e := by
  rw [List.mapM_cons]
  cases f x <;> cases xs.mapM f <;> simp [bind, Except.bind, pure, Except.pure]

/-- A traversal fails with an item that fails after items that do not. -/
theorem mapM_eq_error_iff {f : α → Except ε β} {xs : List α} {e : ε} :
    xs.mapM f = .error e ↔ ∃ before x after, xs = before ++ x :: after ∧
      (∀ y ∈ before, ∃ z, f y = .ok z) ∧ f x = .error e := by
  induction xs with
  | nil => simp [pure, Except.pure]
  | cons x xs ih =>
    rw [mapM_cons_eq_error_iff, ih]
    constructor
    · rintro (hx | ⟨hx, before, y, after, rfl, hb, hy⟩)
      · exact ⟨[], x, xs, rfl, by simp, hx⟩
      · exact ⟨x :: before, y, after, rfl, List.forall_mem_cons.mpr ⟨hx, hb⟩, hy⟩
    · rintro ⟨before, y, after, hl, hb, hy⟩
      cases before with
      | nil =>
        obtain ⟨rfl, -⟩ := List.cons.inj hl
        exact Or.inl hy
      | cons w before =>
        obtain ⟨rfl, rfl⟩ := List.cons.inj hl
        obtain ⟨hx, hb⟩ := List.forall_mem_cons.mp hb
        exact Or.inr ⟨hx, before, y, after, rfl, hb, hy⟩

theorem map_eq_of_forall₂ {R : α → β → Prop} {f : α → γ} {g : β → γ} {xs : List α} {ys : List β}
    (h : List.Forall₂ R xs ys) (hfg : ∀ x y, R x y → g y = f x) : ys.map g = xs.map f := by
  induction h with
  | nil => rfl
  | cons hxy _ ih => rw [List.map_cons, List.map_cons, ih, hfg _ _ hxy]

theorem exists_mem_of_forall₂ {R : α → β → Prop} {xs : List α} {ys : List β}
    (h : List.Forall₂ R xs ys) {y : β} (hy : y ∈ ys) : ∃ x ∈ xs, R x y := by
  induction h with
  | nil => cases hy
  | cons hxy _ ih =>
    rcases List.mem_cons.mp hy with rfl | hy
    · exact ⟨_, List.mem_cons_self, hxy⟩
    · obtain ⟨x, hx, hr⟩ := ih hy
      exact ⟨x, List.mem_cons_of_mem _ hx, hr⟩

theorem exists_forall₂_iff {R : α → β → Prop} {P : α → Prop} (h : ∀ x, (∃ y, R x y) ↔ P x)
    {xs : List α} : (∃ ys, List.Forall₂ R xs ys) ↔ ∀ x ∈ xs, P x := by
  induction xs with
  | nil => exact iff_of_true ⟨_, .nil⟩ nofun
  | cons x xs ih =>
    rw [List.forall_mem_cons, ← ih, ← h]
    constructor
    · rintro ⟨_, hxy | ⟨hxy, hs⟩⟩; exact ⟨⟨_, hxy⟩, _, hs⟩
    · rintro ⟨⟨_, hxy⟩, _, hs⟩; exact ⟨_, .cons hxy hs⟩

theorem forall₂_of_common {R : α → β → Prop} {S : α → γ → Prop} {T : β → γ → Prop}
    {xs : List α} {ys : List β} {zs : List γ} (h : List.Forall₂ R xs ys)
    (h' : List.Forall₂ S xs zs) (ht : ∀ x ∈ xs, ∀ y z, R x y → S x z → T y z) :
    List.Forall₂ T ys zs := by
  induction h generalizing zs with
  | nil => cases h'; exact .nil
  | cons hxy _ ih =>
    cases h' with
    | cons hxz hs =>
      rw [List.forall_mem_cons] at ht
      exact .cons (ht.1 _ _ hxy hxz) (ih hs ht.2)

theorem mapM_eq_mapM_of_forall₂ {f : α → Except ε γ} {g : β → Except ε γ} {xs : List α}
    {ys : List β} (h : List.Forall₂ (fun x y => f x = g y) xs ys) : xs.mapM f = ys.mapM g := by
  induction h with
  | nil => rfl
  | cons hxy _ ih => rw [List.mapM_cons, List.mapM_cons, hxy, ih]

theorem Outcome.eq_succeed_of_answer {σ ε : Type} {o : Outcome σ ε Unit} (h : o.answer = .ok ()) :
    o = .succeed o.state () := by
  obtain ⟨state, answer⟩ := o
  exact congrArg (Outcome.mk state) h

theorem Outcome.eq_fail_of_answer {σ ε α : Type} {o : Outcome σ ε α} {s : σ} {e : ε}
    (h : o.answer = .error e) (hs : o.state = s) : o = .fail s e := by
  obtain ⟨state, answer⟩ := o
  exact congrArg₂ Outcome.mk hs h

theorem Outcome.eq_succeed_of_toExcept {σ ε : Type} {o : Outcome σ ε Unit} {s : σ}
    (h : o.toExcept = .ok s) : o = succeed s () := by
  obtain ⟨answer, rfl⟩ := toExcept_eq_ok_iff.mp h
  rw [succeed, ← answer]

theorem Outcome.toExcept_forEach_cons_eq_ok_iff {σ : Type}
    {step : σ → α → Outcome σ ε Unit} {s t : σ} {x : α} {xs : List α} :
    (forEach step s (x :: xs)).toExcept = .ok t ↔
      ∃ s', (step s x).toExcept = .ok s' ∧ (forEach step s' xs).toExcept = .ok t := by
  rw [forEach_cons]
  cases h : (step s x).answer <;> simp [toExcept_eq_ok_iff, h]

end Interconnect
