import Interconnect.Proofs.Denotation
import Mathlib.Algebra.Group.Nat.Defs

/-! # Valid fields

What the written value of a field stands for under the parameters, said without resolving it. A
counting field is a number, a digit string of at most 64 bits, or the name of a natural
parameter; a switching field is a flag, zero or one, or the name of a boolean parameter.
-/

namespace Interconnect

open Parameter (Table Value)

namespace Text

/-- The text begins like a name: with an ASCII letter or an underscore. -/
def BeginsName (s : String) : Prop := ∃ c cs, s.toList = c :: cs ∧ (c.isAlpha = true ∨ c = '_')

theorem isSymbol_iff {s : String} : isSymbol s = true ↔ BeginsName s := by
  unfold isSymbol BeginsName
  cases s.toList <;> simp

theorem isDigits_iff {s : String} :
    isDigits s = true ↔ s.toList ≠ [] ∧ ∀ c ∈ s.toList, c.isDigit = true := by
  simp [isDigits]

theorem number?_eq_some_iff {s : String} {n : UInt64} :
    number? s = some n ↔ Nat.ofDigitChars 10 s.toList 0 = n.toNat := by
  simp only [number?, Option.ite_none_right_eq_some, Option.some.injEq]
  constructor
  · rintro ⟨h, rfl⟩; exact (UInt64.toNat_ofNat_of_lt h).symm
  · intro h; rw [h]; exact ⟨n.toNat_lt, UInt64.ofNat_toNat⟩

theorem isDigits_eq_false_of_beginsName {s : String} (h : BeginsName s) : isDigits s = false := by
  obtain ⟨c, cs, hs, hc⟩ := h
  have hdigit : c.isDigit = false := by
    rcases hc with hc | rfl
    · change (decide (65 ≤ c.val ∧ c.val ≤ 90) ||
        (decide (97 ≤ c.val) && decide (c.val ≤ 122))) = true at hc
      change (decide (48 ≤ c.val) && decide (c.val ≤ 57)) = false
      simp only [Bool.or_eq_true, Bool.and_eq_true, Bool.and_eq_false_iff, decide_eq_true_eq,
        decide_eq_false_iff_not, UInt32.le_iff_toNat_le, UInt32.reduceToNat] at hc ⊢
      omega
    · decide
  simp [isDigits, hs, hdigit]

end Text

namespace Scalar

/-- The number that a counting field stands for. -/
inductive Counts (t : Table) : Scalar → Nat → Prop where
  | number (n : UInt64) : Counts t (.number n) n.toNat
  | digits {s : String} : s.toList ≠ [] → (∀ c ∈ s.toList, c.isDigit = true) →
      Nat.ofDigitChars 10 s.toList 0 < 2 ^ 64 →
      Counts t (.text s) (Nat.ofDigitChars 10 s.toList 0)
  | parameter {s : String} {n : UInt64} : Text.BeginsName s → t.lookup s = some (.natural n) →
      Counts t (.text s) n.toNat

/-- The number that a counting field stands for, or its default when it is not there. -/
inductive CountsOr (t : Table) (default : Nat) : Option Scalar → Nat → Prop where
  | absent : CountsOr t default none default
  | written {raw : Scalar} {n : Nat} : raw.Counts t n → CountsOr t default (some raw) n

/-- The flag that a switching field stands for. -/
inductive Switches (t : Table) : Scalar → Bool → Prop where
  | flag (b : Bool) : Switches t (.flag b) b
  | zero : Switches t (.number 0) false
  | one : Switches t (.number 1) true
  | zeroText : Switches t (.text "0") false
  | oneText : Switches t (.text "1") true
  | parameter {s : String} {b : Bool} : Text.BeginsName s → t.lookup s = some (.boolean b) →
      Switches t (.text s) b

def IsNumber (t : Table) (raw : Scalar) : Prop := ∃ n, raw.Counts t n

def IsFlag (t : Table) (raw : Scalar) : Prop := ∃ b, raw.Switches t b

end Scalar

theorem Value.natural?_eq_some_iff {v : Value} {n : UInt64} :
    v.natural? = some n ↔ v = .natural n := by
  cases v <;> simp [Value.natural?]

theorem Value.boolean?_eq_some_iff {v : Value} {b : Bool} :
    v.boolean? = some b ↔ v = .boolean b := by
  cases v <;> simp [Value.boolean?]

theorem Value.text?_eq_some_iff {v : Value} {s : String} :
    v.text? = some s ↔ v = .text s := by
  cases v <;> simp [Value.text?]

section Fields

open Reference (Denotes ofNumber ofFlag numberOr flagOr)

variable {α : Type} {t : Table} {read : Value → Option α} {raw : Scalar} {name : String}

theorem Reference.ofNumber_eq_literal_iff {n : UInt64} :
    ofNumber raw = .literal n ↔ raw = .number n ∨
      ∃ s, raw = .text s ∧ Text.isDigits s = true ∧ Text.number? s = some n := by
  cases raw with
  | flag b => simp [ofNumber]
  | number m => simp [ofNumber]
  | text s =>
    cases hd : Text.isDigits s with
    | true => cases hn : Text.number? s <;> simp [ofNumber, hd, hn]
    | false => cases hs : Text.isSymbol s <;> simp [ofNumber, hd, hs]

theorem Reference.ofNumber_eq_symbol_iff :
    ofNumber raw = .symbol name ↔ raw = .text name ∧ Text.BeginsName name := by
  rw [← Text.isSymbol_iff]
  cases raw with
  | flag b => simp [ofNumber]
  | number m => simp [ofNumber]
  | text s =>
    cases hs : Text.isSymbol s with
    | true =>
      have hd := Text.isDigits_eq_false_of_beginsName (Text.isSymbol_iff.mp hs)
      simp only [ofNumber, hd, hs]
      grind
    | false =>
      cases hd : Text.isDigits s with
      | true => cases hn : Text.number? s <;> grind [ofNumber]
      | false => grind [ofNumber]

theorem Reference.ofFlag_eq_symbol_iff :
    ofFlag raw = .symbol name ↔ raw = .text name ∧ Text.BeginsName name := by
  rw [← Text.isSymbol_iff]
  have hzero : Text.isSymbol "0" = false := by decide
  have hone : Text.isSymbol "1" = false := by decide
  cases raw <;> grind [ofFlag]

theorem Reference.ofFlag_eq_literal_iff {b : Bool} :
    ofFlag raw = .literal b ↔ raw = .flag b ∨
      b = false ∧ (raw = .number 0 ∨ raw = .text "0") ∨
      b = true ∧ (raw = .number 1 ∨ raw = .text "1") := by
  cases raw <;> grind [ofFlag]

theorem Reference.exists_denotes_symbol_iff {v : α} :
    (∃ r, Denotes t.environment read (.symbol name) r ∧ r.value = v) ↔
      ∃ value, t.lookup name = some value ∧ read value = some v := by
  simp only [Table.lookup, Option.map_eq_some_iff]
  constructor
  · rintro ⟨_, _ | ⟨hp, hv⟩, rfl⟩
    obtain ⟨p, hget, rfl⟩ := Option.map_eq_some_iff.mp hp
    exact ⟨p.value, ⟨p, hget, rfl⟩, hv⟩
  · rintro ⟨_, ⟨p, hp, rfl⟩, hv⟩
    exact ⟨_, .symbol (Option.map_eq_some_iff.mpr ⟨p, hp, rfl⟩) hv, rfl⟩

/-- A counting field resolves to the number that it stands for. -/
theorem Scalar.counts_iff {n : Nat} :
    raw.Counts t n ↔
      ∃ r, (ofNumber raw).Denotes t.environment Value.natural? r ∧ r.value.toNat = n := by
  constructor
  · rintro (n | ⟨hne, hd, hlt⟩ | ⟨hs, hp⟩)
    · exact ⟨_, .literal n, rfl⟩
    · next s =>
      have hn : (UInt64.ofNat (Nat.ofDigitChars 10 s.toList 0)).toNat
          = Nat.ofDigitChars 10 s.toList 0 := UInt64.toNat_ofNat_of_lt hlt
      have href := Reference.ofNumber_eq_literal_iff.mpr
        (.inr ⟨s, rfl, Text.isDigits_iff.mpr ⟨hne, hd⟩, Text.number?_eq_some_iff.mpr hn.symm⟩)
      rw [href]
      exact ⟨_, .literal _, hn⟩
    · obtain ⟨r, hr, hv⟩ := Reference.exists_denotes_symbol_iff.mpr
        ⟨_, hp, Value.natural?_eq_some_iff.mpr rfl⟩
      rw [Reference.ofNumber_eq_symbol_iff.mpr ⟨rfl, hs⟩]
      exact ⟨r, hr, congrArg _ hv⟩
  · rintro ⟨r, hr, rfl⟩
    cases href : ofNumber raw with
    | malformed => rw [href] at hr; cases hr
    | literal n =>
      rw [href] at hr
      cases hr
      rcases Reference.ofNumber_eq_literal_iff.mp href with rfl | ⟨s, rfl, hd, hn⟩
      · exact .number n
      · obtain ⟨hne, hd⟩ := Text.isDigits_iff.mp hd
        have hn := Text.number?_eq_some_iff.mp hn
        rw [← hn]
        exact .digits hne hd (hn ▸ n.toNat_lt)
    | symbol name =>
      obtain ⟨rfl, hs⟩ := Reference.ofNumber_eq_symbol_iff.mp href
      obtain ⟨v, hp, hv⟩ := Reference.exists_denotes_symbol_iff.mp ⟨r, href ▸ hr, rfl⟩
      rw [Value.natural?_eq_some_iff] at hv
      exact .parameter hs (hv ▸ hp)

theorem Scalar.switches_iff {b : Bool} :
    raw.Switches t b ↔
      ∃ r, (ofFlag raw).Denotes t.environment Value.boolean? r ∧ r.value = b := by
  have hliteral (h : ofFlag raw = .literal b) :
      ∃ r, (ofFlag raw).Denotes t.environment Value.boolean? r ∧ r.value = b :=
    h ▸ ⟨_, .literal b, rfl⟩
  constructor
  · rintro (b | _ | _ | _ | _ | ⟨hs, hp⟩)
    case parameter =>
      rw [Reference.ofFlag_eq_symbol_iff.mpr ⟨rfl, hs⟩]
      exact Reference.exists_denotes_symbol_iff.mpr
        ⟨_, hp, Value.boolean?_eq_some_iff.mpr rfl⟩
    all_goals exact hliteral (Reference.ofFlag_eq_literal_iff.mpr (by simp))
  · rintro ⟨r, hr, rfl⟩
    cases href : ofFlag raw with
    | malformed => rw [href] at hr; cases hr
    | literal b =>
      rw [href] at hr
      cases hr
      rcases Reference.ofFlag_eq_literal_iff.mp href with
        rfl | ⟨rfl, rfl | rfl⟩ | ⟨rfl, rfl | rfl⟩
      · exact .flag b
      · exact .zero
      · exact .zeroText
      · exact .one
      · exact .oneText
    | symbol name =>
      obtain ⟨rfl, hs⟩ := Reference.ofFlag_eq_symbol_iff.mp href
      obtain ⟨v, hp, hv⟩ := Reference.exists_denotes_symbol_iff.mp ⟨r, href ▸ hr, rfl⟩
      rw [Value.boolean?_eq_some_iff] at hv
      exact .parameter hs (hv ▸ hp)

theorem Reference.exists_denotes_ofNumber_iff :
    (∃ r, (ofNumber raw).Denotes t.environment Value.natural? r) ↔ raw.IsNumber t := by
  simp only [Scalar.IsNumber, Scalar.counts_iff]
  exact ⟨fun ⟨r, hr⟩ => ⟨_, r, hr, rfl⟩, fun ⟨_, r, hr, _⟩ => ⟨r, hr⟩⟩

theorem Reference.exists_denotes_ofFlag_iff :
    (∃ r, (ofFlag raw).Denotes t.environment Value.boolean? r) ↔ raw.IsFlag t := by
  simp only [Scalar.IsFlag, Scalar.switches_iff]
  exact ⟨fun ⟨r, hr⟩ => ⟨_, r, hr, rfl⟩, fun ⟨_, r, hr, _⟩ => ⟨r, hr⟩⟩

variable {written : Option Scalar}

theorem Scalar.countsOr_iff (default : UInt64) {n : Nat} :
    CountsOr t default.toNat written n ↔
      ∃ r, (numberOr default written).Denotes t.environment Value.natural? r ∧
        r.value.toNat = n := by
  cases written with
  | some raw =>
    refine Iff.trans ?_ counts_iff
    exact ⟨fun | .written h => h, .written⟩
  | none =>
    constructor
    · rintro ⟨⟩; exact ⟨_, .literal default, rfl⟩
    · rintro ⟨_, ⟨⟩, rfl⟩; exact .absent

theorem Reference.exists_denotes_numberOr_iff {default : UInt64} :
    (∃ r, (numberOr default written).Denotes t.environment Value.natural? r) ↔
      ∀ raw ∈ written, raw.IsNumber t := by
  cases written with
  | some raw => simp [numberOr, exists_denotes_ofNumber_iff]
  | none => exact iff_of_true ⟨_, .literal default⟩ nofun

theorem Reference.exists_denotes_flagOr_iff {default : Bool} :
    (∃ r, (flagOr default written).Denotes t.environment Value.boolean? r) ↔
      ∀ raw ∈ written, raw.IsFlag t := by
  cases written with
  | some raw => simp [flagOr, exists_denotes_ofFlag_iff]
  | none => exact iff_of_true ⟨_, .literal default⟩ nofun

end Fields

end Interconnect
