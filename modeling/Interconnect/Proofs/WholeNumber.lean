import Interconnect.Proofs.Shortest

/-! # Whole numbers in binary64

A whole number with at most 53 significant binary digits is a binary64 number. Any other is
rounded to a whole number nearby, up to the numbers from which on there is none to round to.
-/

namespace Interconnect.Binary64

variable {n k m : ℕ} {e : ℤ} {x : Binary64}

/-- At most 53 significant binary digits, with zeros behind them. -/
def Exact (n : ℕ) : Prop := ∃ m k, m < 2 ^ 53 ∧ n = m * 2 ^ k

/-- The least whole number that is nearer to `2 ^ 1024` than to the largest finite number, or
as near. -/
def overflow : ℕ := 2 ^ 1024 - 2 ^ 970

theorem exact_of_lt (h : n < 2 ^ 53) : Exact n := ⟨n, 0, h, by rw [pow_zero, mul_one]⟩

theorem exists_rounded_natCast (hn : 0 < n) :
    ∃ m e, Rounded n m e ∧ nearest n 1 = ofMantissa m e := by
  have h := exists_rounded hn one_pos
  rwa [Nat.cast_one, div_one] at h

theorem Rounded.relative_error_natCast (hn : 0 < n) (h : Rounded n m e) :
    |(n : ℚ) - m * 2 ^ e| ≤ n / 2 ^ 53 := by
  apply h.relative_error
  have hone : (1 : ℚ) ≤ n := by exact_mod_cast hn
  have hsmall : (2 : ℚ) ^ (-1022 : ℤ) ≤ 2 ^ (0 : ℤ) := by gcongr <;> norm_num
  exact hsmall.trans (by rwa [zpow_zero])

theorem Rounded.exponent_eq (h : Rounded n m e) : e = Int.log 2 (n : ℚ) - 52 := by
  have hlog : 0 ≤ Int.log 2 (n : ℚ) := by
    rw [Int.log_natCast]
    exact Int.natCast_nonneg _
  have := h.exponent
  simp only [minExponent] at this
  omega

theorem exists_canonical_of_nearest (hn : 0 < n) (hx : nearest n 1 = some x) :
    ∃ m e, Rounded n m e ∧ x.Canonical ∧ x.value = m * 2 ^ e := by
  obtain ⟨m, e, h, hnearest⟩ := exists_rounded_natCast hn
  have hpos : (0 : ℚ) < n := by exact_mod_cast hn
  have he := h.exponent_eq
  have hm : 0 < m := leadingBit_pos.trans_le (h.leadingBit_le hpos (by omega))
  rw [hnearest] at hx
  exact ⟨m, e, h, h.canonical hpos hm hx, value_of_ofMantissa hx⟩

theorem value_of_nearest_zero (hx : nearest 0 1 = some x) : x.value = 0 := by
  cases hx
  rw [value, Nat.cast_zero, zero_mul]

theorem abs_sub_value_nearest_le (hx : nearest n 1 = some x) :
    |(n : ℚ) - x.value| ≤ n / 2 ^ 53 := by
  rcases Nat.eq_zero_or_pos n with rfl | hn
  · rw [value_of_nearest_zero hx]
    norm_num
  obtain ⟨m, e, h, -, hvalue⟩ := exists_canonical_of_nearest hn hx
  rw [hvalue]
  exact h.relative_error_natCast hn

theorem value_nearest_of_exact (h : Exact n) (hx : nearest n 1 = some x) : x.value = n := by
  rcases Nat.eq_zero_or_pos n with rfl | hn
  · rw [value_of_nearest_zero hx, Nat.cast_zero]
  obtain ⟨m, e, hround, -, hvalue⟩ := exists_canonical_of_nearest hn hx
  obtain ⟨l, k, hl, rfl⟩ := h
  have hl' : 0 < l := Nat.pos_of_mul_pos_right hn
  have hcast : ((l * 2 ^ k : ℕ) : ℚ) = l * 2 ^ (k : ℤ) := by push_cast [zpow_natCast]; rfl
  rw [hcast] at hround ⊢
  rw [hvalue, hround.exact hl' hl (by simp only [minExponent]; omega)]

theorem exact_of_value_eq (hx : x.Canonical) (h : x.value = n) : Exact n := by
  have hm : x.mantissa < 2 ^ 53 := hx.lt
  rcases Int.le_total 0 x.exponent with he | he
  · obtain ⟨k, hk⟩ := Int.eq_ofNat_of_zero_le he
    rw [value, hk, zpow_natCast] at h
    exact ⟨x.mantissa, k, hm, by exact_mod_cast h.symm⟩
  · have hle : (n : ℚ) ≤ x.mantissa := by
      rw [← h, value]
      exact mul_le_of_le_one_right (Nat.cast_nonneg _) (zpow_le_one_of_nonpos₀ one_le_two he)
    exact exact_of_lt (lt_of_le_of_lt (by exact_mod_cast hle) hm)

/-- A whole number is rounded to a whole number. -/
theorem cast_round_nearest (hx : nearest n 1 = some x) : (x.round : ℚ) = x.value := by
  have hround {l : ℕ} (hl : x.value = l) : (x.round : ℚ) = x.value := by
    rw [round_eq (n := l) (by rw [hl, sub_self]; norm_num), hl]
  rcases Nat.lt_or_ge n (2 ^ 53) with hlt | hge
  · exact hround (value_nearest_of_exact (exact_of_lt hlt) hx)
  · have hn : 0 < n := lt_of_lt_of_le (by norm_num) hge
    obtain ⟨m, e, h, -, hvalue⟩ := exists_canonical_of_nearest hn hx
    have hlog : 53 ≤ Int.log 2 (n : ℚ) := by
      rw [Int.log_natCast]
      exact_mod_cast (Nat.le_log_iff_pow_le one_lt_two hn.ne').mpr hge
    obtain ⟨k, rfl⟩ : ∃ k : ℕ, e = k := ⟨e.toNat, by have := h.exponent_eq; omega⟩
    exact hround (l := m * 2 ^ k) (by rw [hvalue]; push_cast; rfl)

theorem round_nearest_eq_iff (hx : nearest n 1 = some x) : x.round = n ↔ Exact n := by
  rw [← Nat.cast_inj (R := ℚ), cast_round_nearest hx]
  refine ⟨fun hvalue => ?_, fun h => value_nearest_of_exact h hx⟩
  rcases Nat.eq_zero_or_pos n with rfl | hn
  · exact exact_of_lt (by norm_num)
  · obtain ⟨-, -, -, hcanonical, -⟩ := exists_canonical_of_nearest hn hx
    exact exact_of_value_eq hcanonical hvalue

theorem pow_le_round_nearest (hle : 2 ^ k ≤ n) (hx : nearest n 1 = some x) : 2 ^ k ≤ x.round := by
  have hn : 0 < n := (Nat.pow_pos two_pos).trans_le hle
  have hpos : (0 : ℚ) < n := by exact_mod_cast hn
  obtain ⟨m, e, h, -, hvalue⟩ := exists_canonical_of_nearest hn hx
  have hlog : (k : ℤ) ≤ Int.log 2 (n : ℚ) := by
    rw [Int.log_natCast]
    exact_mod_cast (Nat.le_log_iff_pow_le one_lt_two hn.ne').mpr hle
  have he := h.exponent_eq
  have hm := h.leadingBit_le hpos (by omega)
  rw [← Nat.cast_le (α := ℚ), cast_round_nearest hx, hvalue]
  calc ((2 ^ k : ℕ) : ℚ) ≤ 2 ^ (52 : ℕ) * 2 ^ e := by
        rw [Nat.cast_pow, Nat.cast_two, ← zpow_natCast, ← zpow_natCast, ← zpow_add₀ two_ne_zero]
        gcongr
        · exact one_le_two
        · push_cast
          omega
    _ ≤ m * 2 ^ e := by
        rw [← cast_leadingBit]
        gcongr

theorem ofMantissa_eq_none_iff :
    ofMantissa m e = none ↔ maxExponent < e ∨ m = 2 * leadingBit ∧ e = maxExponent := by
  simp only [ofMantissa, ite_eq_left_iff, reduceCtorEq, imp_false, not_not]
  split
  next hfull =>
    change maxExponent < e + 1 ↔ _
    omega
  next hfull =>
    change maxExponent < e ↔ _
    omega

theorem overflow_le_iff : overflow ≤ n ↔ 2 ^ 53 - 1 / 2 ≤ (n : ℚ) / 2 ^ maxExponent := by
  have hhalf : 2 ^ 970 ≤ 2 ^ 1024 := pow_le_pow_right₀ one_le_two (by norm_num)
  have hcast : (overflow : ℚ) = (2 ^ 53 - 1 / 2) * 2 ^ maxExponent := by
    have hunit : (2 : ℚ) ^ maxExponent = 2 ^ 970 * 2 := by
      rw [← pow_succ, ← zpow_natCast]
      rfl
    have hpow : (2 : ℚ) ^ 1024 = 2 ^ 53 * (2 ^ 970 * 2) := by rw [← pow_succ, ← pow_add]
    rw [overflow, Nat.cast_sub hhalf, Nat.cast_pow, Nat.cast_pow, Nat.cast_two, hpow, hunit,
      sub_mul, ← mul_assoc, one_div_mul_eq_div, mul_div_cancel_right₀ _ two_ne_zero]
  rw [le_div_iff₀ (by positivity), ← hcast, Nat.cast_le]

/-- A mantissa carries from half a unit below the next power of two on. -/
theorem Rounded.eq_full_iff {v : ℚ} (hv : 0 < v) (h : Rounded v m e) :
    m = 2 * leadingBit ↔ 2 ^ 53 - 1 / 2 ≤ v / 2 ^ e := by
  have hfull : ((2 * leadingBit : ℕ) : ℚ) = 2 ^ 53 := by
    push_cast [cast_leadingBit]
    norm_num
  have herror := abs_le.mp h.mantissa.error
  constructor
  · rintro rfl
    rw [hfull] at herror
    linarith
  · intro hge
    refine (h.le hv).antisymm (not_lt.mp fun hlt => ?_)
    -- The last number below `2 ^ 53` is odd, so a tie goes up.
    have hm : (m : ℚ) + 1 ≤ 2 ^ 53 := by
      rw [← hfull]
      exact_mod_cast hlt
    have heven : m % 2 = 0 := by
      apply h.mantissa.even
      rw [abs_eq (by norm_num)]
      left
      linarith
    have hodd : m + 1 = 2 * leadingBit := by
      rw [← Nat.cast_inj (R := ℚ), hfull]
      push_cast
      linarith
    omega

/-- There is no number to round to exactly from `overflow` on. -/
theorem nearest_eq_none_iff : nearest n 1 = none ↔ overflow ≤ n := by
  rcases Nat.eq_zero_or_pos n with rfl | hn
  · have hpos : 0 < overflow := Nat.sub_pos_of_lt (pow_lt_pow_right₀ one_lt_two (by norm_num))
    exact iff_of_false (by simp [nearest]) (by omega)
  have hpos : (0 : ℚ) < n := by exact_mod_cast hn
  obtain ⟨m, e, h, hnearest⟩ := exists_rounded_natCast hn
  have he := h.exponent_eq
  rw [hnearest, ofMantissa_eq_none_iff, overflow_le_iff]
  rcases lt_trichotomy e maxExponent with hlt | rfl | hgt
  · have hless : (n : ℚ) / 2 ^ maxExponent < 2 ^ 52 := by
      rw [div_lt_pow_iff hpos]
      omega
    exact iff_of_false (by omega) (by linarith)
  · simpa using h.eq_full_iff hpos
  · have hmore : 2 ^ 53 ≤ (n : ℚ) / 2 ^ maxExponent := by
      rw [pow_le_div_iff hpos]
      omega
    exact iff_of_true (.inl hgt) (by linarith)

theorem exists_nearest_of_lt (hlt : n < 2 ^ 53) : ∃ x, nearest n 1 = some x ∧ x.value = n := by
  have hoverflow : 2 ^ 53 ≤ overflow := by decide +kernel
  have hsome : nearest n 1 ≠ none := by
    rw [Ne, nearest_eq_none_iff]
    omega
  obtain ⟨x, hx⟩ := Option.ne_none_iff_exists'.mp hsome
  exact ⟨x, hx, value_nearest_of_exact (exact_of_lt hlt) hx⟩

/-- A whole number is read as the number nearest to it, beyond the upper cut-off too. -/
theorem ofDecimal_natCast (n : ℕ) : ofDecimal ⟨n, 0⟩ = nearest n 1 := by
  rcases Nat.eq_zero_or_pos n with rfl | hn
  · rfl
  · have hlength := @Nat.length_toDigits_le_iff 10 n 310 (by norm_num) (by norm_num)
    have hlow : ¬((Nat.toDigits 10 n).length : ℤ) < -330 := by omega
    simp only [ofDecimal, Decimal.length, add_zero, hn.ne', hlow, decide_false, Bool.or_self,
      Bool.false_eq_true, if_false]
    split
    next htop =>
      have hle : 10 ^ 310 ≤ n := by
        rw [← not_lt, ← hlength, not_le]
        exact_mod_cast htop
      have hoverflow : overflow ≤ 2 ^ 1024 := Nat.sub_le _ _
      exact (nearest_eq_none_iff.mpr ((hoverflow.trans two_pow_le_ten_pow).trans hle)).symm
    next htop => rw [if_pos le_rfl, Int.toNat_zero, Nat.pow_eq, pow_zero, mul_one]

theorem scaleUp_one_of_nearest (hx : nearest n 1 = some x) : x.scaleUp 1 = some x := by
  rcases Nat.eq_zero_or_pos n with rfl | hn
  · cases hx
    rfl
  obtain ⟨-, -, -, hcanonical, -⟩ := exists_canonical_of_nearest hn hx
  have hholds : x.Holds (x.fraction.1 / x.fraction.2) := by
    rw [fraction_div]
    exact hcanonical.holds_value
  have hnum : 0 < x.fraction.1 := by
    have hden : (0 : ℚ) < x.fraction.2 := by exact_mod_cast x.fraction_pos
    exact_mod_cast (div_pos_iff_of_pos_right hden).mp (hholds.pos hcanonical)
  simp only [scaleUp, Nat.mul_one]
  exact nearest_of_holds hcanonical hnum x.fraction_pos hholds

end Interconnect.Binary64
