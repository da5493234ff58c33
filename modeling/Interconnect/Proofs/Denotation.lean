import Interconnect.Resolved
import Interconnect.Proofs.Inversion

/-! # What a field denotes

A reference denotes a resolved field under the parameters: a literal denotes itself, and
a name denotes the value of its parameter, with the name as key. A field resolves exactly
to what its reference denotes. The key therefore comes from the reference alone, and the
value from the parameter of that key alone.
-/

namespace Interconnect

open Parameter (Environment Reading Value)

variable {α : Type} {env env' : Environment} {read : Value → Option α}
  {point field label : String} {raw : Scalar}

/-- Two environments agree on the parameters of a list of symbolic fields. -/
def AgreeOn (symbols : List (String × String)) (env env' : Environment) : Prop :=
  ∀ s ∈ symbols, env s.2 = env' s.2

@[simp] theorem agreeOn_append {l m : List (String × String)} :
    AgreeOn (l ++ m) env env' ↔ AgreeOn l env env' ∧ AgreeOn m env env' := by
  simp [AgreeOn, or_imp, forall_and]

namespace Reference

/-- The parameter that a reference names. -/
def name? : Reference α → Option String
  | symbol name => some name
  | _ => none

/-- The entry of a reference in a list of symbolic fields: none for a literal. -/
def symbols (label : String) (ref : Reference α) : List (String × String) :=
  ref.name?.toList.map (label, ·)

/-- A counting field, or its default when it is not there. -/
def numberOr (default : UInt64) : Option Scalar → Reference UInt64
  | some raw => ofNumber raw
  | none => literal default

/-- A switching field, or its default when it is not there. -/
def flagOr (default : Bool) : Option Scalar → Reference Bool
  | some raw => ofFlag raw
  | none => literal default

theorem symbols_numberOr {default other : UInt64} {raw : Option Scalar} :
    (numberOr default raw).symbols label = (numberOr other raw).symbols label := by
  cases raw <;> rfl

/-- The resolved field that a reference stands for under the parameters. -/
inductive Denotes (env : Environment) (read : Value → Option α) :
    Reference α → Resolved α → Prop where
  | literal (v : α) : Denotes env read (.literal v) { value := v }
  | symbol {name : String} {r : Reading} {v : α} : env name = some r → read r.value = some v →
      Denotes env read (.symbol name) { value := v, key := some name }

namespace Denotes

variable {ref : Reference α} {r r' : Resolved α}

theorem key_eq (h : Denotes env read ref r) : r.key = ref.name? := by
  cases h <;> rfl

theorem symbolic_eq (h : Denotes env read ref r) : r.symbolic label = ref.symbols label := by
  cases h <;> rfl

theorem read_eq (h : Denotes env read ref r) {key : String} (hk : r.key = some key) :
    ∃ p, env key = some p ∧ read p.value = some r.value := by
  cases h with
  | literal => cases hk
  | symbol hp hv => cases hk; exact ⟨_, hp, hv⟩

/-- The value of a field without a key does not depend on the parameters. -/
theorem eq_of_key_eq_none (h : Denotes env read ref r) (h' : Denotes env' read ref r')
    (hk : r.key = none) : r = r' := by
  cases h with
  | literal => cases h'; rfl
  | symbol => cases hk

end Denotes

end Reference

namespace Resolved

open Reference (Denotes)

theorem ofReference?_eq_ok_some_iff {ref : Reference α} {r : Resolved α} :
    ofReference? env read point field ref = .ok (some r) ↔ ref.Denotes env read r := by
  constructor
  · intro h
    cases ref with
    | literal v => cases h; exact .literal v
    | malformed => cases h
    | symbol name =>
      simp only [ofReference?] at h
      cases hp : env name with
      | none => simp [hp] at h
      | some p =>
        obtain ⟨v, hv, rfl⟩ : ∃ v, read p.value = some v ∧ ⟨v, some name⟩ = r := by
          simpa [hp] using h
        exact .symbol hp hv
  · rintro (v | ⟨hp, hv⟩)
    · rfl
    · simp [ofReference?, hp, hv]

theorem orElse_eq_ok_iff {error : Point.Error} {x : Except Point.Error (Option (Resolved α))}
    {r : Resolved α} : orElse error x = .ok r ↔ x = .ok (some r) := by
  rcases x with _ | _ | _ <;> simp [orElse]

theorem orElse_natural?_eq_ok_iff {error : Point.Error} {r : Resolved UInt64} :
    orElse error (natural? env point field raw) = .ok r ↔
      (Reference.ofNumber raw).Denotes env Value.natural? r := by
  rw [orElse_eq_ok_iff, natural?, ofReference?_eq_ok_some_iff]

theorem orElse_flag?_eq_ok_iff {error : Point.Error} {r : Resolved Bool} :
    orElse error (flag? env point field raw) = .ok r ↔
      (Reference.ofFlag raw).Denotes env Value.boolean? r := by
  rw [orElse_eq_ok_iff, flag?, ofReference?_eq_ok_some_iff]

theorem number_eq_ok_iff {r : Resolved UInt64} :
    number env point field raw = .ok r ↔
      (Reference.ofNumber raw).Denotes env Value.natural? r :=
  orElse_natural?_eq_ok_iff

theorem natural_eq_ok_iff {raw : Option Scalar} {default : UInt64} {r : Resolved UInt64} :
    natural env point field raw default = .ok r ↔
      (Reference.numberOr default raw).Denotes env Value.natural? r := by
  cases raw with
  | some raw => exact number_eq_ok_iff
  | none =>
    constructor
    · intro h; cases h; exact .literal default
    · rintro ⟨⟩; rfl

theorem flag_eq_ok_iff {raw : Option Scalar} {default : Bool} {r : Resolved Bool} :
    flag env point field raw default = .ok r ↔
      (Reference.flagOr default raw).Denotes env Value.boolean? r := by
  cases raw with
  | some raw => exact orElse_flag?_eq_ok_iff
  | none =>
    constructor
    · intro h; cases h; exact .literal default
    · rintro ⟨⟩; rfl

theorem positive_eq_ok_iff {width r : Resolved UInt64} :
    positive point field width = .ok r ↔ width.value ≠ 0 ∧ width = r := by
  unfold positive
  split <;> simp [*]

theorem ofReference?_congr {ref : Reference α} (h : AgreeOn (ref.symbols label) env env') :
    ofReference? env read point field ref = ofReference? env' read point field ref := by
  cases ref with
  | literal | malformed => rfl
  | symbol name =>
    have hn : env name = env' name := h (label, name) (by simp [Reference.symbols, Reference.name?])
    simp only [ofReference?, hn]

theorem natural?_congr (h : AgreeOn ((Reference.ofNumber raw).symbols label) env env') :
    natural? env point field raw = natural? env' point field raw :=
  ofReference?_congr h

theorem flag?_congr (h : AgreeOn ((Reference.ofFlag raw).symbols label) env env') :
    flag? env point field raw = flag? env' point field raw :=
  ofReference?_congr h

theorem number_congr (h : AgreeOn ((Reference.ofNumber raw).symbols label) env env') :
    number env point field raw = number env' point field raw := by
  rw [number, number, natural?_congr h]

theorem natural_congr {raw : Option Scalar} {default : UInt64}
    (h : AgreeOn ((Reference.numberOr default raw).symbols label) env env') :
    natural env point field raw default = natural env' point field raw default := by
  cases raw with
  | some raw => exact number_congr h
  | none => rfl

theorem flag_congr {raw : Option Scalar} {default : Bool}
    (h : AgreeOn ((Reference.flagOr default raw).symbols label) env env') :
    flag env point field raw default = flag env' point field raw default := by
  cases raw with
  | some raw => simp only [flag, flag?_congr h]
  | none => rfl

end Resolved

theorem value_ne_zero_iff {width : UInt64} : width ≠ 0 ↔ 0 < width.toNat := by
  rw [Ne, ← UInt64.toNat_inj, Nat.pos_iff_ne_zero]
  rfl

theorem mod_eq_zero_iff {width symbolWidth : UInt64} :
    width % symbolWidth = 0 ↔ symbolWidth.toNat ∣ width.toNat := by
  rw [← UInt64.toNat_inj, UInt64.toNat_mod, Nat.dvd_iff_mod_eq_zero]
  rfl

theorem symbolCount_eq_ok_iff {width symbolWidth count : UInt64} :
    symbolCount point width symbolWidth = .ok count ↔
      width % symbolWidth = 0 ∧ width / symbolWidth = count := by
  unfold symbolCount
  split <;> simp [*]

end Interconnect
