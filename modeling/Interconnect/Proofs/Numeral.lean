import Interconnect.Decimal
import Mathlib

/-! # Plain numerals

A decimal in positional notation is written with digits and at most one point, without sign
and exponent. Such a numeral is read in full, and the decimal read has the value of the one
written.
-/

namespace Interconnect.Decimal

variable {cs : List Char} {d : Decimal}

/-- The decimal as a fraction. -/
def value (d : Decimal) : ℚ := d.coefficient * 10 ^ d.exponent

theorem value_pos_iff : 0 < d.value ↔ 0 < d.coefficient := by
  rw [value, mul_pos_iff_of_pos_right (by positivity), Nat.cast_pos]

theorem value_lt (d : Decimal) : d.value < 10 ^ (d.length + d.exponent) := by
  have hlt : d.coefficient < 10 ^ d.length :=
    (Nat.length_toDigits_le_iff (by norm_num) Nat.length_toDigits_pos).mp le_rfl
  rw [value, zpow_add₀ (by norm_num), zpow_natCast]
  gcongr
  exact_mod_cast hlt

theorem le_value (h : 0 < d.coefficient) : 10 ^ (d.length + d.exponent - 1) ≤ d.value := by
  have hlength : 0 < d.length := Nat.length_toDigits_pos
  have hle : 10 ^ (d.length - 1) ≤ d.coefficient := by
    rcases Nat.eq_zero_or_pos (d.length - 1) with hone | hmore
    · rw [hone]
      exact h
    · rw [← not_lt, ← Nat.length_toDigits_le_iff (by norm_num) hmore]
      change ¬d.length ≤ d.length - 1
      omega
  have hexponent : (d.length : ℤ) + d.exponent - 1 = (d.length - 1 : ℕ) + d.exponent := by omega
  rw [value, hexponent, zpow_add₀ (by norm_num), zpow_natCast]
  gcongr
  exact_mod_cast hle

/-- The characters are digits, with a point between them or without, that denote the decimal. -/
inductive Numeral : List Char → Decimal → Prop where
  | digits {ds : List Char} (hne : ds ≠ []) (hds : ∀ c ∈ ds, c.isDigit) :
      Numeral ds ⟨Nat.ofDigitChars 10 ds 0, 0⟩
  | point {ds fs : List Char} (hne : ds ≠ []) (hds : ∀ c ∈ ds, c.isDigit)
      (hfs : ∀ c ∈ fs, c.isDigit) :
      Numeral (ds ++ '.' :: fs) ⟨Nat.ofDigitChars 10 (ds ++ fs) 0, -fs.length⟩

namespace Numeral

theorem mem (h : Numeral cs d) {c : Char} (hc : c ∈ cs) : c.isDigit ∨ c = '.' := by
  cases h with
  | digits _ hds => exact .inl (hds c hc)
  | point _ hds hfs =>
    rcases List.mem_append.mp hc with hc | hc
    · exact .inl (hds c hc)
    · rcases List.mem_cons.mp hc with rfl | hc
      · exact .inr rfl
      · exact .inl (hfs c hc)

theorem sign_eq (h : Numeral cs d) : sign cs = (false, cs) := by
  have hfirst {c : Char} {rest : List Char} (hc : c.isDigit) :
      sign (c :: rest) = (false, c :: rest) := by
    have hminus : c ≠ '-' := by rintro rfl; exact absurd hc (by decide)
    have hplus : c ≠ '+' := by rintro rfl; exact absurd hc (by decide)
    simp [sign, hminus, hplus]
  cases h with
  | digits hne hds =>
    obtain ⟨c, rest, rfl⟩ := List.exists_cons_of_ne_nil hne
    exact hfirst (hds c List.mem_cons_self)
  | point hne hds =>
    obtain ⟨c, rest, rfl⟩ := List.exists_cons_of_ne_nil hne
    exact hfirst (hds c List.mem_cons_self)

theorem unsigned?_eq (h : Numeral cs d) : unsigned? cs = some d := by
  cases h with
  | digits hne hds =>
    rw [unsigned?, List.takeWhile_eq_self_iff.mpr hds, List.dropWhile_eq_nil_iff.mpr hds]
    simp [hne, exponent?]
  | @point ds fs hne hds hfs =>
    have hpoint : ¬Char.isDigit '.' := by decide
    rw [unsigned?, List.takeWhile_append_of_pos hds, List.dropWhile_append_of_pos hds,
      List.takeWhile_cons_of_neg hpoint, List.dropWhile_cons_of_neg hpoint, List.append_nil]
    simp [List.takeWhile_eq_self_iff.mpr hfs, List.dropWhile_eq_nil_iff.mpr hfs, hne, exponent?]

theorem parse?_eq (h : Numeral cs d) : parse? cs = some (false, d) := by
  rw [parse?, h.sign_eq]
  simp [h.unsigned?_eq]

end Numeral

theorem numeral_toDigits (n : ℕ) : Numeral (Nat.toDigits 10 n) ⟨n, 0⟩ := by
  have h : Numeral (Nat.toDigits 10 n) _ :=
    .digits Nat.toDigits_ne_nil fun _ => Nat.isDigit_of_mem_toDigits (by norm_num) le_rfl
  rwa [Nat.ofDigitChars_ten_toDigits] at h

/-- Zeros in front or behind, and the point among the digits, keep the value. -/
theorem exists_numeral_positional (h : 0 < d.coefficient) :
    ∃ d', Numeral d.positional.toList d' ∧ d'.value = d.value := by
  have hds : ∀ c ∈ Nat.toDigits 10 d.coefficient, c.isDigit := fun _ =>
    Nat.isDigit_of_mem_toDigits (by norm_num) le_rfl
  have hzeros (k : ℕ) : ∀ c ∈ List.replicate k '0', c.isDigit := fun c hc =>
    List.eq_of_mem_replicate hc ▸ rfl
  simp only [positional, if_neg h.ne']
  split
  next he =>
    rw [String.toList_ofList]
    refine ⟨_, .digits (by simp [Nat.toDigits_ne_nil]) ?_, ?_⟩
    · rintro c hc
      exact (List.mem_append.mp hc).elim (hds c) (hzeros _ c)
    · lift d.exponent to ℕ using he with k hk
      rw [value, value, ← hk, Nat.ofDigitChars_append, Nat.ofDigitChars_ten_toDigits,
        Nat.ofDigitChars_replicate_zero, Int.toNat_natCast, zpow_natCast]
      push_cast
      ring
  next he =>
    rw [String.toList_ofList]
    set ds := List.replicate ((-d.exponent).toNat + 1 - (Nat.toDigits 10 d.coefficient).length) '0'
      ++ Nat.toDigits 10 d.coefficient with hpadded
    have hdigits : ∀ c ∈ ds, c.isDigit := by
      intro c hc
      exact (List.mem_append.mp hc).elim (hzeros _ c) (hds c)
    have hlength : (-d.exponent).toNat < ds.length := by
      rw [hpadded, List.length_append, List.length_replicate]
      omega
    have hnumber : Nat.ofDigitChars 10 ds 0 = d.coefficient := by
      rw [hpadded, Nat.ofDigitChars_append, Nat.ofDigitChars_replicate_zero, Nat.mul_zero,
        Nat.ofDigitChars_ten_toDigits]
    refine ⟨_, .point ?_ (fun c hc => hdigits c (List.mem_of_mem_take hc))
      (fun c hc => hdigits c (List.mem_of_mem_drop hc)), ?_⟩
    · rw [← List.length_pos_iff, List.length_take]
      omega
    · rw [value, value, List.take_append_drop, hnumber, List.length_drop]
      congr 2
      dsimp only
      omega

end Interconnect.Decimal
