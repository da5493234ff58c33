import Interconnect.Proofs.Denotation

/-! # Fields of records and their origins

A record lists its resolved fields under labels, and its declaration lists, in the same
order, what each of them comes from: a reference, or a width computed from another
reference. The key of a field is fixed by its origin, and so is the value of a field
without a key, unless it is computed.
-/

namespace Interconnect

open Parameter (Environment Value)

/-- A resolved field of a record. -/
inductive Field where
  | number (label : String) (r : Resolved UInt64)
  | flag (label : String) (r : Resolved Bool)
  deriving DecidableEq, Repr

namespace Field

def label : Field → String
  | number label _ => label
  | flag label _ => label

def key : Field → Option String
  | number _ r => r.key
  | flag _ r => r.key

def value : Field → Value
  | number _ r => .natural r.value
  | flag _ r => .boolean r.value

end Field

/-- What a field comes from. -/
inductive Origin where
  | number (label : String) (ref : Reference UInt64)
  | flag (label : String) (ref : Reference Bool)
  | computed (label : String) (ref : Reference UInt64) (f : UInt64 → UInt64)

namespace Origin

def label : Origin → String
  | number label _ => label
  | flag label _ => label
  | computed label _ _ => label

/-- The parameter that becomes the key of the field. -/
def key : Origin → Option String
  | number _ ref => ref.name?
  | flag _ ref => ref.name?
  | computed _ _ _ => none

def IsComputed : Origin → Prop
  | computed _ _ _ => True
  | _ => False

/-- The field that an origin gives under the parameters. -/
inductive Yields (env : Environment) : Origin → Field → Prop where
  | number {label : String} {ref : Reference UInt64} {r : Resolved UInt64} :
      ref.Denotes env Value.natural? r → Yields env (.number label ref) (.number label r)
  | flag {label : String} {ref : Reference Bool} {r : Resolved Bool} :
      ref.Denotes env Value.boolean? r → Yields env (.flag label ref) (.flag label r)
  | computed {label : String} {ref : Reference UInt64} {r : Resolved UInt64}
      {f : UInt64 → UInt64} : ref.Denotes env Value.natural? r →
      Yields env (.computed label ref f) (.number label { value := f r.value })

variable {env env' : Environment} {o : Origin} {f f' : Field}

theorem Yields.label_eq (h : Yields env o f) : f.label = o.label := by
  cases h <;> rfl

theorem Yields.key_eq (h : Yields env o f) : f.key = o.key := by
  cases h with
  | number h | flag h => exact h.key_eq
  | computed => rfl

theorem Yields.value_eq (h : Yields env o f) {key : String} (hk : f.key = some key) :
    ∃ p, env key = some p ∧ p.value = f.value := by
  cases h with
  | number h =>
    obtain ⟨⟨v, _, _⟩, hp, hv⟩ := h.read_eq hk
    cases v <;> cases hv
    exact ⟨_, hp, rfl⟩
  | flag h =>
    obtain ⟨⟨v, _, _⟩, hp, hv⟩ := h.read_eq hk
    cases v <;> cases hv
    exact ⟨_, hp, rfl⟩
  | computed => cases hk

theorem Yields.eq_of_key_eq_none (h : Yields env o f) (h' : Yields env' o f')
    (hc : ¬ o.IsComputed) (hk : f.key = none) : f = f' := by
  cases h with
  | number h => cases h' with | number h' => rw [h.eq_of_key_eq_none h' hk]
  | flag h => cases h' with | flag h' => rw [h.eq_of_key_eq_none h' hk]
  | computed => exact absurd trivial hc

theorem map_eq_of_yields {os : List Origin} {fs fs' : List Field}
    (h : List.Forall₂ (Yields env) os fs) (h' : List.Forall₂ (Yields env') os fs') :
    fs.map (fun f => (f.label, f.key)) = fs'.map (fun f => (f.label, f.key)) := by
  have heq : ∀ {env : Environment} (o : Origin) (f : Field), Yields env o f →
      (f.label, f.key) = (o.label, o.key) := by
    intro _ o f hy
    rw [hy.label_eq, hy.key_eq]
  rw [map_eq_of_forall₂ h heq, map_eq_of_forall₂ h' heq]

/-- Two records of the same origins have equal fields wherever there is no key, but for
the computed ones. -/
theorem forall₂_of_yields {os : List Origin} {fs fs' : List Field}
    (h : List.Forall₂ (Yields env) os fs) (h' : List.Forall₂ (Yields env') os fs') :
    List.Forall₂
      (fun f f' => f.key = none → f = f' ∨ ∃ o ∈ os, o.IsComputed ∧ o.label = f.label)
      fs fs' := by
  refine forall₂_of_common h h' fun o ho f f' hf hf' hk => ?_
  by_cases hc : o.IsComputed
  · exact Or.inr ⟨o, ho, hc, hf.label_eq.symm⟩
  · exact Or.inl (hf.eq_of_key_eq_none hf' hc hk)

end Origin

section Parts

variable {α β γ : Type} {R : α → β → Prop} {a : Option α} {b : Option β}

theorem forall₂_toList (h : Option.Rel R a b) : List.Forall₂ R a.toList b.toList := by
  cases h with
  | none => exact .nil
  | some h => exact .cons h .nil

theorem optionRel_imp {S : α → β → Prop} (h : Option.Rel R a b) (hRS : ∀ x y, R x y → S x y) :
    Option.Rel S a b := by
  cases h with
  | none => exact .none
  | some h => exact .some (hRS _ _ h)

theorem exists_optionRel_iff {P : α → Prop} (h : ∀ x, (∃ y, R x y) ↔ P x) :
    (∃ b, Option.Rel R a b) ↔ ∀ x ∈ a, P x := by
  cases a with
  | none => exact iff_of_true ⟨_, .none⟩ nofun
  | some x =>
    constructor
    · rintro ⟨_, ⟨hy⟩⟩ _ ⟨⟩; exact (h x).mp ⟨_, hy⟩
    · intro hx
      obtain ⟨y, hy⟩ := (h x).mpr (hx x rfl)
      exact ⟨_, .some hy⟩

theorem flatMap_eq_of_forall₂ {as : List α} {bs : List β} {f : α → List γ} {g : β → List γ}
    (h : List.Forall₂ R as bs) (hfg : ∀ x y, R x y → g y = f x) : bs.flatMap g = as.flatMap f := by
  rw [List.flatMap_def, List.flatMap_def, map_eq_of_forall₂ h hfg]

@[simp] theorem agreeOn_flatMap {env env' : Environment} {as : List α}
    {f : α → List (String × String)} :
    AgreeOn (as.flatMap f) env env' ↔ ∀ x ∈ as, AgreeOn (f x) env env' := by
  simp only [AgreeOn, List.mem_flatMap]
  constructor
  · intro h x hx s hs; exact h s ⟨x, hx, hs⟩
  · rintro h s ⟨x, hx, hs⟩; exact h x hx s hs

end Parts

end Interconnect
