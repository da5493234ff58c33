import Interconnect.Proofs.Numeral
import Interconnect.Proofs.Rounding

/-! # Decimals that read back

The fractions that round to a binary64 number fill an interval around it. The decimal with
which the number is shown is taken from that interval, on whatever grid the search ends, and
so is any other decimal of the same value. Reading such a decimal gives the number again.
-/

namespace Interconnect.Binary64

variable {x : Binary64} {v : ℚ} {num den : ℕ} {d : Decimal}

/-- The fraction lies in the interval that rounds to the number; the ends of the interval
belong to it when the mantissa is even. -/
structure Holds (x : Binary64) (v : ℚ) : Prop where
  lower : (x.interval.1 : ℚ) ≤ 4 * (v / 2 ^ x.exponent)
  upper : 4 * (v / 2 ^ x.exponent) ≤ x.interval.2
  inner : x.mantissa % 2 = 1 →
    (x.interval.1 : ℚ) < 4 * (v / 2 ^ x.exponent) ∧ 4 * (v / 2 ^ x.exponent) < x.interval.2

theorem interval_upper (x : Binary64) : (x.interval.2 : ℚ) = 4 * x.mantissa + 2 := by
  simp [interval]

theorem Canonical.interval_lower (h : x.Canonical) :
    (x.interval.1 : ℚ) = 4 * x.mantissa
      - (if x.mantissa = leadingBit ∧ minExponent < x.exponent then 1 else 2) := by
  have hpos := h.pos
  simp only [interval, Bool.and_eq_true, decide_eq_true_eq]
  split
  · rw [Nat.cast_sub (by omega)]
    push_cast
    ring
  · rw [Nat.cast_sub (by omega)]
    push_cast
    ring

theorem Canonical.holds_value (h : x.Canonical) : x.Holds x.value := by
  have hvalue : x.value / 2 ^ x.exponent = x.mantissa := by
    rw [value, mul_div_cancel_right₀ _ (by positivity)]
  constructor
  case lower =>
    rw [hvalue, h.interval_lower]
    split <;> linarith
  case upper =>
    rw [hvalue, interval_upper]
    linarith
  case inner =>
    rw [hvalue, h.interval_lower, interval_upper]
    refine fun _ => ⟨?_, by linarith⟩
    split <;> linarith

theorem Holds.pos (h : x.Holds v) (hx : x.Canonical) : 0 < v := by
  have hm : (1 : ℚ) ≤ x.mantissa := by exact_mod_cast hx.pos
  have hlower := h.lower
  rw [hx.interval_lower] at hlower
  have hquotient : 0 < v / 2 ^ x.exponent := by
    split at hlower <;> linarith
  exact (div_pos_iff_of_pos_right (by positivity)).mp hquotient

theorem Holds.isNearest (h : x.Holds v) (hx : x.Canonical) :
    IsNearest (v / 2 ^ x.exponent) x.mantissa := by
  have hlower : (x.interval.1 : ℚ) ≥ 4 * x.mantissa - 2 := by
    rw [hx.interval_lower]
    split <;> linarith
  have hupper := x.interval_upper
  constructor
  case error =>
    rw [abs_le]
    constructor
    · linarith [h.lower]
    · linarith [h.upper]
  case even =>
    intro htie
    rcases Nat.mod_two_eq_zero_or_one x.mantissa with heven | hodd
    · exact heven
    · have hinner := h.inner hodd
      have : |v / 2 ^ x.exponent - x.mantissa| < 1 / 2 := by
        rw [abs_lt]
        constructor <;> linarith
      exact absurd htie this.ne

theorem Holds.div_lt_pow (h : x.Holds v) (hx : x.Canonical) : v / 2 ^ x.exponent < 2 ^ 53 := by
  have hm : (x.mantissa : ℚ) + 1 ≤ (2 * leadingBit : ℕ) := by exact_mod_cast hx.lt
  have hupper := h.upper
  rw [interval_upper] at hupper
  push_cast [cast_leadingBit] at hm
  linarith

theorem Holds.rounded (h : x.Holds v) (hx : x.Canonical)
    (hfull : 2 ^ 52 ≤ v / 2 ^ x.exponent ∨ x.exponent = minExponent) :
    Rounded v x.mantissa x.exponent := by
  have hhigh := (div_lt_pow_iff (h.pos hx) 53).mp (h.div_lt_pow hx)
  refine ⟨?_, h.isNearest hx⟩
  rcases hfull with hlow | hmin
  · have := (pow_le_div_iff (h.pos hx) 52).mp hlow
    have := hx.minExponent_le
    omega
  · omega

/-- Just below a power of two there is one binary digit less, and rounding carries. -/
theorem Holds.rounded_below (h : x.Holds v) (hx : x.Canonical)
    (hless : v / 2 ^ x.exponent < 2 ^ 52) (hmin : minExponent < x.exponent) :
    x.mantissa = leadingBit ∧ Rounded v (2 * leadingBit) (x.exponent - 1) := by
  have hlower := h.lower
  rw [hx.interval_lower] at hlower
  have hle : x.mantissa ≤ leadingBit := by
    have : (x.mantissa : ℚ) < leadingBit + 1 := by
      rw [cast_leadingBit]
      split at hlower <;> linarith
    have : x.mantissa < leadingBit + 1 := by exact_mod_cast this
    omega
  have hm : x.mantissa = leadingBit := hle.antisymm (hx.normal.resolve_right hmin.ne')
  rw [if_pos ⟨hm, hmin⟩, hm, cast_leadingBit] at hlower
  have hdouble : v / 2 ^ (x.exponent - 1) = 2 * (v / 2 ^ x.exponent) := by
    rw [zpow_sub_one₀ two_ne_zero]
    field_simp
  have hlow : 2 ^ 52 ≤ v / 2 ^ (x.exponent - 1) := by
    rw [hdouble]
    linarith
  refine ⟨hm, ?_, ?_, fun _ => Nat.mul_mod_right 2 _⟩
  · have := (pow_le_div_iff (h.pos hx) 52).mp hlow
    have := (div_lt_pow_iff (h.pos hx) 52).mp hless
    omega
  · rw [hdouble, abs_le]
    push_cast [cast_leadingBit]
    constructor <;> linarith

/-- A fraction in the interval of a number rounds to it. -/
theorem nearest_of_holds (hx : x.Canonical) (hnum : 0 < num) (hden : 0 < den)
    (h : x.Holds (num / den)) : nearest num den = some x := by
  have hmax := hx.le_maxExponent
  by_cases hfull : (2 : ℚ) ^ 52 ≤ num / den / 2 ^ x.exponent ∨ x.exponent = minExponent
  · rw [nearest_eq hnum hden (h.rounded hx hfull), ofMantissa, if_neg hx.lt.ne, if_neg hmax.not_gt]
  · rw [not_or, not_le] at hfull
    obtain ⟨hless, hmin⟩ := hfull
    have hmin := lt_of_le_of_ne hx.minExponent_le (Ne.symm hmin)
    obtain ⟨hm, hround⟩ := h.rounded_below hx hless hmin
    rw [nearest_eq hnum hden hround, ofMantissa, if_pos rfl, sub_add_cancel, ← hm,
      if_neg hmax.not_gt]

theorem quarter_pos (x : Binary64) (p : ℤ) : 0 < (x.quarter p).1 :=
  Nat.mul_pos (Nat.pow_pos two_pos) (Nat.pow_pos (by norm_num))

theorem quarter_div (x : Binary64) (p : ℤ) :
    ((x.quarter p).2 : ℚ) / (x.quarter p).1 = 4 * (10 ^ p / 2 ^ x.exponent) := by
  have htwo := pow_toNat_div_pow_toNat 2 (-(x.exponent - 2))
  have hten := pow_toNat_div_pow_toNat 10 p
  rw [neg_neg] at htwo
  simp only [quarter]
  rw [Nat.cast_mul, Nat.cast_mul, mul_div_mul_comm, htwo, hten, neg_sub, Nat.cast_two,
    zpow_sub₀ two_ne_zero]
  push_cast
  ring

/-- The test of a multiple of `10 ^ p` asks whether the interval holds it. -/
theorem holds_iff_inside (x : Binary64) (p : ℤ) (k : ℕ) :
    x.Holds (k * 10 ^ p) ↔
      (if x.mantissa % 2 = 0 then
        decide (x.interval.1 * (x.quarter p).1 ≤ k * (x.quarter p).2) &&
          decide (k * (x.quarter p).2 ≤ x.interval.2 * (x.quarter p).1)
      else decide (x.interval.1 * (x.quarter p).1 < k * (x.quarter p).2) &&
        decide (k * (x.quarter p).2 < x.interval.2 * (x.quarter p).1)) = true := by
  have hn : (0 : ℚ) < (x.quarter p).1 := by exact_mod_cast x.quarter_pos p
  have hunits : 4 * ((k : ℚ) * 10 ^ p / 2 ^ x.exponent) =
      (k * (x.quarter p).2 : ℕ) / (x.quarter p).1 := by
    rw [Nat.cast_mul, mul_div_assoc, mul_div_assoc, quarter_div]
    ring
  have hle (a : ℕ) : (a : ℚ) ≤ 4 * ((k : ℚ) * 10 ^ p / 2 ^ x.exponent) ↔
      a * (x.quarter p).1 ≤ k * (x.quarter p).2 := by
    rw [hunits, le_div_iff₀ hn]
    exact_mod_cast Iff.rfl
  have hge (a : ℕ) : 4 * ((k : ℚ) * 10 ^ p / 2 ^ x.exponent) ≤ a ↔
      k * (x.quarter p).2 ≤ a * (x.quarter p).1 := by
    rw [hunits, div_le_iff₀ hn]
    exact_mod_cast Iff.rfl
  split
  next heven =>
    rw [Bool.and_eq_true, decide_eq_true_eq, decide_eq_true_eq, ← hle, ← hge]
    exact ⟨fun h => ⟨h.lower, h.upper⟩, fun h => ⟨h.1, h.2, fun hodd => by omega⟩⟩
  next hodd =>
    rw [Bool.and_eq_true, decide_eq_true_eq, decide_eq_true_eq, ← not_le, ← not_le, ← hle, ← hge,
      not_le, not_le]
    exact ⟨fun h => h.inner (by omega), fun h => ⟨h.1.le, h.2.le, fun _ => h⟩⟩

theorem holds_of_onGrid? {p : ℤ} {k : ℕ} (h : x.onGrid? p = some k) : x.Holds (k * 10 ^ p) := by
  simp only [onGrid?] at h
  split at h
  next hk hk' =>
    rw [Option.some.injEq] at h
    subst h
    split
    · exact (holds_iff_inside x p _).mpr hk
    · exact (holds_iff_inside x p _).mpr hk'
  next hk hk' =>
    rw [Option.some.injEq] at h
    exact h ▸ (holds_iff_inside x p _).mpr hk
  next hk hk' =>
    rw [Option.some.injEq] at h
    exact h ▸ (holds_iff_inside x p _).mpr hk'
  next => exact absurd h (by simp)

theorem value_exactDecimal (x : Binary64) : x.exactDecimal.value = x.value := by
  rcases Int.le_total 0 x.exponent with he | he
  · obtain ⟨k, hk⟩ := Int.eq_ofNat_of_zero_le he
    simp [exactDecimal, Decimal.value, value, hk]
  · obtain ⟨k, hk⟩ : ∃ k : ℕ, x.exponent = -k := ⟨(-x.exponent).toNat, by omega⟩
    rcases Nat.eq_zero_or_pos k with rfl | hpos
    · simp [exactDecimal, Decimal.value, value, hk]
    · have hneg : ¬(0 : ℤ) ≤ -k := by omega
      have hten : (10 : ℚ) ^ k = 5 ^ k * 2 ^ k := by rw [← mul_pow]; norm_num
      simp only [exactDecimal, Decimal.value, value, hk, if_neg hneg, neg_neg, Int.toNat_natCast,
        zpow_neg, zpow_natCast, hten, Nat.cast_mul, Nat.pow_eq, Nat.cast_pow, Nat.cast_ofNat]
      field_simp

theorem Canonical.holds_shortestFrom (hx : x.Canonical) (steps : ℕ) (p : ℤ) :
    x.Holds (x.shortestFrom steps p).value := by
  induction steps generalizing p with
  | zero =>
    rw [shortestFrom, value_exactDecimal]
    exact hx.holds_value
  | succ steps ih =>
    rw [shortestFrom]
    split
    next k hk => exact holds_of_onGrid? hk
    next => exact ih (p - 1)

/-- The decimal with which a number is shown lies in the interval of the number. -/
theorem Canonical.holds_shortest (hx : x.Canonical) : x.Holds x.shortest.value :=
  hx.holds_shortestFrom _ _

/-- The largest finite number is below the upper cut-off of `ofDecimal`. -/
theorem two_pow_le_ten_pow : 2 ^ 1024 ≤ 10 ^ 310 := by decide +kernel

/-- The least positive number is above the lower cut-off of `ofDecimal`. -/
theorem two_pow_lt_ten_pow : 2 ^ 1075 < 10 ^ 331 := by decide +kernel

theorem Holds.lt_pow (h : x.Holds v) (hx : x.Canonical) : v < 10 ^ 310 := by
  have hmax := hx.le_maxExponent
  simp only [maxExponent] at hmax
  have hlog := (div_lt_pow_iff (h.pos hx) 53).mp (h.div_lt_pow hx)
  calc v < 2 ^ ((1024 : ℕ) : ℤ) := by
        rw [← Nat.cast_two, Int.lt_zpow_iff_log_lt one_lt_two (h.pos hx)]
        omega
    _ ≤ 10 ^ 310 := by
        rw [zpow_natCast]
        exact_mod_cast two_pow_le_ten_pow

theorem Holds.pow_lt (h : x.Holds v) (hx : x.Canonical) : (10 ^ 331)⁻¹ < v := by
  have hm : (1 : ℚ) ≤ x.mantissa := by exact_mod_cast hx.pos
  have hmin := hx.minExponent_le
  simp only [minExponent] at hmin
  have hhalf : 2⁻¹ ≤ v / 2 ^ x.exponent := by linarith [(abs_le.mp (h.isNearest hx).error).1]
  calc ((10 : ℚ) ^ 331)⁻¹ < (2 ^ 1075)⁻¹ :=
        inv_strictAnti₀ (by positivity) (by exact_mod_cast two_pow_lt_ten_pow)
    _ = 2⁻¹ * 2 ^ (-((1074 : ℕ) : ℤ)) := by rw [zpow_neg, zpow_natCast, ← mul_inv, ← pow_succ']
    _ ≤ 2⁻¹ * 2 ^ x.exponent := by
        gcongr
        · exact one_le_two
        · omega
    _ ≤ v := (le_div_iff₀ (by positivity)).mp hhalf

theorem ofDecimal_eq_nearest (hlow : (10 ^ 331)⁻¹ < d.value) (hhigh : d.value < 10 ^ 310) :
    ∃ num den : ℕ, 0 < num ∧ 0 < den ∧ (num : ℚ) / den = d.value ∧
      ofDecimal d = nearest num den := by
  have hcoefficient : 0 < d.coefficient :=
    Decimal.value_pos_iff.mp (lt_trans (by positivity) hlow)
  have htop : -331 < (d.length : ℤ) + d.exponent := by
    rw [← zpow_lt_zpow_iff_right₀ (show (1 : ℚ) < 10 by norm_num)]
    exact (zpow_neg (10 : ℚ) 331 ▸ hlow).trans d.value_lt
  have htop' : (d.length : ℤ) + d.exponent - 1 < 310 := by
    rw [← zpow_lt_zpow_iff_right₀ (show (1 : ℚ) < 10 by norm_num)]
    exact (Decimal.le_value hcoefficient).trans_lt hhigh
  have hzero : ¬(decide (d.coefficient = 0) || decide ((d.length : ℤ) + d.exponent < -330)) := by
    rw [Bool.or_eq_true, decide_eq_true_eq, decide_eq_true_eq]
    omega
  have hpow := pow_toNat_div_pow_toNat 10 d.exponent
  rw [Nat.cast_ofNat] at hpow
  simp only [ofDecimal, if_neg hzero, if_neg (show ¬310 < (d.length : ℤ) + d.exponent by omega)]
  split
  next he =>
    refine ⟨d.coefficient * Nat.pow 10 d.exponent.toNat, 1, ?_, one_pos, ?_, rfl⟩
    · exact Nat.mul_pos hcoefficient (Nat.pow_pos (by norm_num))
    · rw [Int.toNat_eq_zero.mpr (Int.neg_nonpos_of_nonneg he)] at hpow
      rw [Decimal.value, ← hpow]
      simp
  next he =>
    refine ⟨d.coefficient, Nat.pow 10 (-d.exponent).toNat, hcoefficient, ?_, ?_, rfl⟩
    · exact Nat.pow_pos (by norm_num)
    · rw [Int.toNat_eq_zero.mpr (le_of_not_ge he)] at hpow
      rw [Decimal.value, ← hpow]
      simp [div_eq_mul_inv]

theorem ofDecimal_of_holds (hx : x.Canonical) (h : x.Holds d.value) : ofDecimal d = some x := by
  obtain ⟨num, den, hnum, hden, hvalue, heq⟩ :=
    ofDecimal_eq_nearest (h.pow_lt hx) (h.lt_pow hx)
  rw [heq]
  exact nearest_of_holds hx hnum hden (hvalue ▸ h)

end Interconnect.Binary64
