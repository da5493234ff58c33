import Interconnect.Binary64
import Mathlib

/-! # Rounding to binary64

A positive fraction is measured in units of a power of two, so that 53 binary digits stand
before the point, or fewer where that unit would be too small. It is rounded to a whole
number of units, a half to an even number. The result differs from the fraction by at most
half a unit, and a number of at most 53 binary digits is left as it is.
-/

namespace Interconnect.Binary64

/-- A whole number nearest to `v`, even where two are equally near. -/
structure IsNearest (v : ℚ) (m : ℕ) : Prop where
  error : |v - m| ≤ 1 / 2
  even : |v - m| = 1 / 2 → m % 2 = 0

variable {v : ℚ} {m m' num den : ℕ} {e : ℤ} {x : Binary64}

theorem isNearest_natCast (m : ℕ) : IsNearest m m :=
  ⟨by norm_num, fun h => by norm_num at h⟩

theorem isNearest_of_lt (h : |v - m| < 1 / 2) : IsNearest v m :=
  ⟨h.le, fun he => absurd he h.ne⟩

/-- Two numbers as near as a half are equal: a tie has one even side. -/
theorem IsNearest.unique (h : IsNearest v m) (h' : IsNearest v m') : m = m' := by
  wlog hlt : m < m' generalizing m m'
  · rcases Nat.lt_trichotomy m m' with hm | hm | hm
    · exact this h h' hm
    · exact hm
    · exact (this h' h hm).symm
  have hgap : (m : ℚ) + 1 ≤ m' := by exact_mod_cast hlt
  have hupper := (abs_le.mp h.error).2
  have hlower := (abs_le.mp h'.error).1
  have hsucc : (m' : ℚ) = m + 1 := by linarith
  have hv : v = m + 1 / 2 := by linarith
  have heven : m % 2 = 0 := h.even (by rw [hv]; norm_num)
  have heven' : m' % 2 = 0 := h'.even (by rw [hv, hsucc, abs_eq (by norm_num)]; right; ring)
  have hnat : m' = m + 1 := by exact_mod_cast hsucc
  omega

theorem isNearest_roundEven (num : ℕ) (hden : 0 < den) :
    IsNearest (num / den) (roundEven num den) := by
  have hd : (0 : ℚ) < den := by exact_mod_cast hden
  have hr : num % den < den := Nat.mod_lt num hden
  have hv : (num : ℚ) / den = (num / den : ℕ) + (num % den : ℕ) / den := by
    have hsplit : (num : ℚ) = den * (num / den : ℕ) + (num % den : ℕ) := by
      exact_mod_cast (Nat.div_add_mod num den).symm
    field_simp
    linarith
  have hpos : (0 : ℚ) ≤ (num % den : ℕ) / den := by positivity
  have hone : ((num % den : ℕ) : ℚ) / den < 1 := (div_lt_one hd).mpr (by exact_mod_cast hr)
  rw [hv, roundEven]
  split
  next hlow =>
    have hhalf : ((num % den : ℕ) : ℚ) / den < 1 / 2 := by
      rw [div_lt_div_iff₀ hd two_pos]; exact_mod_cast (by omega)
    apply isNearest_of_lt
    rw [add_sub_cancel_left, abs_of_nonneg hpos]
    exact hhalf
  next hlow =>
    split
    next hhigh =>
      have hhalf : 1 / 2 < ((num % den : ℕ) : ℚ) / den := by
        rw [div_lt_div_iff₀ two_pos hd]; exact_mod_cast (by omega)
      apply isNearest_of_lt
      rw [abs_lt]
      push_cast
      constructor <;> linarith
    next hhigh =>
      have hhalf : ((num % den : ℕ) : ℚ) / den = 1 / 2 := by
        rw [div_eq_div_iff hd.ne' two_ne_zero]; exact_mod_cast (by omega)
      rw [hhalf]
      rcases Nat.mod_two_eq_zero_or_one (num / den) with hq | hq
      · rw [hq, Nat.add_zero]
        exact ⟨by norm_num, fun _ => hq⟩
      · rw [hq]
        refine ⟨?_, fun _ => by omega⟩
        push_cast
        rw [abs_le]
        constructor <;> linarith

theorem leadingBit_pos : 0 < leadingBit := by decide

theorem cast_leadingBit : (leadingBit : ℚ) = 2 ^ 52 := by norm_num [leadingBit]

theorem pow_toNat_div_pow_toNat (b : ℕ) (e : ℤ) :
    ((Nat.pow b e.toNat : ℕ) : ℚ) / (Nat.pow b (-e).toNat : ℕ) = (b : ℚ) ^ e := by
  rcases Int.le_total 0 e with he | he
  · lift e to ℕ using he
    simp
  · obtain ⟨k, rfl⟩ : ∃ k : ℕ, e = -k := ⟨(-e).toNat, by omega⟩
    simp

theorem scaled_pos (num : ℕ) (hden : 0 < den) (e : ℤ) : 0 < (scaled num den e).2 := by
  unfold scaled
  split
  · exact Nat.mul_pos hden (Nat.pow_pos two_pos)
  · exact hden

theorem scaled_div (num den : ℕ) (e : ℤ) :
    ((scaled num den e).1 : ℚ) / (scaled num den e).2 = num / den / 2 ^ e := by
  unfold scaled
  split
  next he =>
    lift e to ℕ using he
    simp [div_div]
  next he =>
    obtain ⟨k, rfl⟩ : ∃ k : ℕ, e = -k := ⟨(-e).toNat, by omega⟩
    simp [div_mul_eq_mul_div]

theorem pow_le_div_iff (hv : 0 < v) (k : ℕ) : 2 ^ k ≤ v / 2 ^ e ↔ k + e ≤ Int.log 2 v := by
  rw [le_div_iff₀ (by positivity), ← zpow_natCast, ← zpow_add₀ two_ne_zero,
    ← Int.zpow_le_iff_le_log one_lt_two hv, Nat.cast_two]

theorem div_lt_pow_iff (hv : 0 < v) (k : ℕ) : v / 2 ^ e < 2 ^ k ↔ Int.log 2 v < k + e := by
  rw [← not_le, pow_le_div_iff hv, not_le]

theorem log_div_bounds (hnum : 0 < num) (hden : 0 < den) :
    (num.log2 : ℤ) - den.log2 - 1 ≤ Int.log 2 ((num : ℚ) / den) ∧
      Int.log 2 ((num : ℚ) / den) < (num.log2 : ℤ) - den.log2 + 1 := by
  have hd : (0 : ℚ) < den := by exact_mod_cast hden
  have hv : (0 : ℚ) < num / den := div_pos (by exact_mod_cast hnum) hd
  have hn₁ : (2 : ℚ) ^ num.log2 ≤ num := by exact_mod_cast Nat.log2_self_le hnum.ne'
  have hn₂ : (num : ℚ) < 2 ^ (num.log2 + 1) := by exact_mod_cast Nat.lt_log2_self
  have hd₁ : (2 : ℚ) ^ den.log2 ≤ den := by exact_mod_cast Nat.log2_self_le hden.ne'
  have hd₂ : (den : ℚ) < 2 ^ (den.log2 + 1) := by exact_mod_cast Nat.lt_log2_self
  constructor
  · rw [← Int.zpow_le_iff_le_log one_lt_two hv, le_div_iff₀ hd, Nat.cast_two]
    calc (2 : ℚ) ^ ((num.log2 : ℤ) - den.log2 - 1) * den
        ≤ 2 ^ ((num.log2 : ℤ) - den.log2 - 1) * 2 ^ (den.log2 + 1) := by gcongr
      _ = 2 ^ num.log2 := by
        rw [← zpow_natCast, ← zpow_natCast, ← zpow_add₀ two_ne_zero]
        congr 1
        push_cast
        ring
      _ ≤ num := hn₁
  · rw [← Int.lt_zpow_iff_log_lt one_lt_two hv, div_lt_iff₀ hd, Nat.cast_two]
    calc (num : ℚ) < 2 ^ (num.log2 + 1) := hn₂
      _ = 2 ^ ((num.log2 : ℤ) - den.log2 + 1) * 2 ^ den.log2 := by
        rw [← zpow_natCast, ← zpow_natCast, ← zpow_add₀ two_ne_zero]
        congr 1
        push_cast
        ring
      _ ≤ 2 ^ ((num.log2 : ℤ) - den.log2 + 1) * den := by gcongr

theorem scaled_lt_iff (hnum : 0 < num) (hden : 0 < den) (e : ℤ) :
    (scaled num den e).1 < leadingBit * (scaled num den e).2
      ↔ Int.log 2 ((num : ℚ) / den) < 52 + e := by
  have hv : (0 : ℚ) < num / den := div_pos (by exact_mod_cast hnum) (by exact_mod_cast hden)
  have hs : (0 : ℚ) < (scaled num den e).2 := by exact_mod_cast scaled_pos num hden e
  rw [← Nat.cast_lt (α := ℚ), Nat.cast_mul, ← div_lt_iff₀ hs, scaled_div, cast_leadingBit,
    div_lt_pow_iff hv, Nat.cast_ofNat]

/-- The mantissa has 53 bits when it is counted in units of the exponent. -/
theorem exponentOf_eq (hnum : 0 < num) (hden : 0 < den) :
    exponentOf num den = Int.log 2 ((num : ℚ) / den) - 52 := by
  obtain ⟨hlower, hupper⟩ := log_div_bounds hnum hden
  simp only [exponentOf, scaled_lt_iff hnum hden]
  split <;> omega

/-- The number of `m` units `2 ^ e`: a full mantissa carries, and there may be no such
number. -/
def ofMantissa (m : ℕ) (e : ℤ) : Option Binary64 :=
  let x : Binary64 := if m = 2 * leadingBit then ⟨leadingBit, e + 1⟩ else ⟨m, e⟩
  if maxExponent < x.exponent then none else some x

/-- `v` rounded is `m` units `2 ^ e`. -/
structure Rounded (v : ℚ) (m : ℕ) (e : ℤ) : Prop where
  exponent : e = max (Int.log 2 v - 52) minExponent
  mantissa : IsNearest (v / 2 ^ e) m

theorem nearest_eq (hnum : 0 < num) (hden : 0 < den) (h : Rounded (num / den) m e) :
    nearest num den = ofMantissa m e := by
  have hround := isNearest_roundEven (scaled num den e).1 (scaled_pos num hden e)
  rw [scaled_div] at hround
  have hm : roundEven (scaled num den e).1 (scaled num den e).2 = m := hround.unique h.mantissa
  simp only [nearest, if_neg hnum.ne', exponentOf_eq hnum hden, ← h.exponent, hm]
  rfl

theorem exists_rounded (hnum : 0 < num) (hden : 0 < den) :
    ∃ m e, Rounded (num / den) m e ∧ nearest num den = ofMantissa m e := by
  have hround (e : ℤ) : IsNearest (num / den / 2 ^ e) (roundEven (scaled num den e).1 _) :=
    scaled_div num den e ▸ isNearest_roundEven _ (scaled_pos num hden e)
  have h : Rounded (num / den) _ _ := ⟨rfl, hround _⟩
  exact ⟨_, _, h, nearest_eq hnum hden h⟩

/-- The number as a fraction. -/
def value (x : Binary64) : ℚ := x.mantissa * 2 ^ x.exponent

theorem value_of_ofMantissa (h : ofMantissa m e = some x) : x.value = m * 2 ^ e := by
  simp only [ofMantissa, Option.ite_none_left_eq_some, Option.some.injEq] at h
  obtain ⟨-, rfl⟩ := h
  split
  next hm =>
    rw [value, hm, zpow_add_one₀ two_ne_zero]
    push_cast
    ring
  next => rfl

/-- A positive finite number in normal form. -/
structure Canonical (x : Binary64) : Prop where
  pos : 0 < x.mantissa
  lt : x.mantissa < 2 * leadingBit
  normal : leadingBit ≤ x.mantissa ∨ x.exponent = minExponent
  minExponent_le : minExponent ≤ x.exponent
  le_maxExponent : x.exponent ≤ maxExponent

namespace Rounded

theorem lt_pow (hv : 0 < v) (h : Rounded v m e) : v / 2 ^ e < 2 ^ 53 := by
  rw [div_lt_pow_iff hv]
  have := h.exponent
  omega

theorem le (hv : 0 < v) (h : Rounded v m e) : m ≤ 2 * leadingBit := by
  have herror := (abs_le.mp h.mantissa.error).1
  have hm : (m : ℚ) < (2 * leadingBit : ℕ) + 1 := by
    push_cast [cast_leadingBit]
    linarith [h.lt_pow hv]
  have : m < 2 * leadingBit + 1 := by exact_mod_cast hm
  omega

theorem error (h : Rounded v m e) : |v - m * 2 ^ e| ≤ 2 ^ e / 2 := by
  have hpow : (0 : ℚ) < 2 ^ e := by positivity
  calc |v - m * 2 ^ e| = |v / 2 ^ e - m| * 2 ^ e := by
        rw [← abs_of_pos hpow, ← abs_mul, abs_of_pos hpow, sub_mul, div_mul_cancel₀ _ hpow.ne']
    _ ≤ 1 / 2 * 2 ^ e := by gcongr; exact h.mantissa.error
    _ = 2 ^ e / 2 := by ring

theorem leadingBit_le (hv : 0 < v) (h : Rounded v m e) (he : e + 52 = Int.log 2 v) :
    leadingBit ≤ m := by
  have hpow : 2 ^ 52 ≤ v / 2 ^ e := by
    rw [pow_le_div_iff hv]
    omega
  have herror := (abs_le.mp h.mantissa.error).2
  have hm : ((leadingBit : ℕ) : ℚ) < m + 1 := by
    rw [cast_leadingBit]
    linarith
  have : leadingBit < m + 1 := by exact_mod_cast hm
  omega

/-- Half a unit is a small part of a number that is not subnormal. -/
theorem relative_error (hv : 2 ^ (-1022 : ℤ) ≤ v) (h : Rounded v m e) :
    |v - m * 2 ^ e| ≤ v / 2 ^ 53 := by
  have hpos : 0 < v := lt_of_lt_of_le (by positivity) hv
  have hlog : -1022 ≤ Int.log 2 v :=
    (Int.zpow_le_iff_le_log one_lt_two hpos).mp (by rwa [Nat.cast_two])
  have he : e + 52 = Int.log 2 v := by
    have := h.exponent
    simp only [minExponent] at this
    omega
  have hunit : 2 ^ e * 2 ^ 52 ≤ v := by
    rw [← zpow_natCast, ← zpow_add₀ two_ne_zero]
    have := Int.zpow_log_le_self one_lt_two hpos
    rw [← he] at this
    exact_mod_cast this
  calc |v - m * 2 ^ e| ≤ 2 ^ e / 2 := h.error
    _ ≤ v / 2 ^ 53 := by
      rw [div_le_div_iff₀ two_pos (by positivity)]
      linarith

/-- A number of at most 53 binary digits, none too small, is not rounded. -/
theorem exact {k : ℕ} {j : ℤ} (h : Rounded (k * 2 ^ j) m e) (hpos : 0 < k) (hk : k < 2 ^ 53)
    (hj : minExponent ≤ j) : (m : ℚ) * 2 ^ e = k * 2 ^ j := by
  have hv : (0 : ℚ) < k * 2 ^ j := by positivity
  have hlog : (k : ℚ) * 2 ^ j / 2 ^ j < 2 ^ 53 := by
    rw [mul_div_cancel_right₀ _ (by positivity)]
    exact_mod_cast hk
  rw [div_lt_pow_iff hv] at hlog
  have he : e ≤ j := by
    have := h.exponent
    omega
  -- The unit divides the number, so the number of units is whole already.
  obtain ⟨n, rfl⟩ : ∃ n : ℕ, j = e + n := ⟨(j - e).toNat, by omega⟩
  have hunits : (k : ℚ) * 2 ^ (e + (n : ℤ)) / 2 ^ e = (k * 2 ^ n : ℕ) := by
    rw [zpow_add₀ two_ne_zero, zpow_natCast]
    push_cast
    field_simp
  have hm : m = k * 2 ^ n := (hunits ▸ h.mantissa).unique (isNearest_natCast _)
  rw [hm, zpow_add₀ two_ne_zero, zpow_natCast]
  push_cast
  ring

theorem canonical (hv : 0 < v) (h : Rounded v m e) (hm : 0 < m) (hx : ofMantissa m e = some x) :
    x.Canonical := by
  have hle := h.le hv
  have hmin : minExponent ≤ e := h.exponent ▸ le_max_right _ _
  have hnormal : leadingBit ≤ m ∨ e = minExponent := by
    refine hmin.lt_or_eq.imp (fun hlt => h.leadingBit_le hv ?_) Eq.symm
    have := h.exponent
    omega
  simp only [ofMantissa, Option.ite_none_left_eq_some, Option.some.injEq, not_lt] at hx
  obtain ⟨hmax, rfl⟩ := hx
  split at hmax
  next hfull =>
    rw [if_pos hfull]
    have hpos := leadingBit_pos
    exact ⟨hpos, by change leadingBit < _; omega, .inl le_rfl, by change _ ≤ e + 1; omega, hmax⟩
  next hfull =>
    rw [if_neg hfull]
    exact ⟨hm, by change m < _; omega, hnormal, hmin, hmax⟩

end Rounded

theorem exists_ofMantissa (m : ℕ) (he : e < maxExponent) : ∃ x, ofMantissa m e = some x := by
  simp only [ofMantissa, Option.ite_none_left_eq_some, not_lt]
  refine ⟨_, ?_, rfl⟩
  split
  · change e + 1 ≤ _
    omega
  · exact he.le

/-- The fraction is neither so small nor so large that the exponent would be cut off. -/
structure InRange (v : ℚ) : Prop where
  low : 2 ^ (-1022 : ℤ) ≤ v
  high : v < 2 ^ (1023 : ℤ)

theorem inRange_of_le (hlow : 1 / 2 ≤ v) (hhigh : v < 2 ^ 64) : InRange v where
  low := by
    have : (2 : ℚ) ^ (-1022 : ℤ) ≤ 2 ^ (-1 : ℤ) := by gcongr <;> norm_num
    exact this.trans (by rwa [zpow_neg_one, ← one_div])
  high := by
    have : (2 : ℚ) ^ (64 : ℤ) ≤ 2 ^ (1023 : ℤ) := by gcongr <;> norm_num
    exact hhigh.trans_le this

/-- A fraction in the range has a number near to it. -/
theorem exists_nearest (hden : 0 < den) (hv : (num : ℚ) / den = v) (hrange : InRange v) :
    ∃ x, nearest num den = some x ∧ x.Canonical ∧ |v - x.value| ≤ v / 2 ^ 53 := by
  subst hv
  have hpos : (0 : ℚ) < num / den := lt_of_lt_of_le (by positivity) hrange.low
  have hnum : 0 < num := by
    rcases Nat.eq_zero_or_pos num with rfl | hnum
    · simp at hpos
    · exact hnum
  obtain ⟨m, e, h, hnearest⟩ := exists_rounded hnum hden
  have hlog : Int.log 2 ((num : ℚ) / den) < 1023 :=
    (Int.lt_zpow_iff_log_lt one_lt_two hpos).mp (by rw [Nat.cast_two]; exact hrange.high)
  have hlog' : -1022 ≤ Int.log 2 ((num : ℚ) / den) :=
    (Int.zpow_le_iff_le_log one_lt_two hpos).mp (by rw [Nat.cast_two]; exact hrange.low)
  have he : e + 52 = Int.log 2 ((num : ℚ) / den) := by
    have := h.exponent
    simp only [minExponent] at this
    omega
  have hm : 0 < m := leadingBit_pos.trans_le (h.leadingBit_le hpos he)
  obtain ⟨x, hx⟩ : ∃ x, ofMantissa m e = some x :=
    exists_ofMantissa m (by simp only [maxExponent]; omega)
  refine ⟨x, hnearest.trans hx, h.canonical hpos hm hx, ?_⟩
  rw [value_of_ofMantissa hx]
  exact h.relative_error hrange.low

theorem fraction_pos (x : Binary64) : 0 < x.fraction.2 := by
  rw [fraction]
  split
  · exact one_pos
  · exact Nat.pow_pos two_pos

theorem fraction_div (x : Binary64) : (x.fraction.1 : ℚ) / x.fraction.2 = x.value := by
  rw [fraction, value]
  split
  next he =>
    obtain ⟨k, hk⟩ := Int.eq_ofNat_of_zero_le he
    simp [hk]
  next he =>
    obtain ⟨k, hk⟩ : ∃ k : ℕ, x.exponent = -k := ⟨(-x.exponent).toNat, by omega⟩
    simp [hk, div_eq_mul_inv]

theorem exists_scaleUp {k : ℕ} (h : InRange (x.value * k)) :
    ∃ y, x.scaleUp k = some y ∧ |x.value * k - y.value| ≤ x.value * k / 2 ^ 53 := by
  have hproduct : ((x.fraction.1 * k : ℕ) : ℚ) / x.fraction.2 = x.value * k := by
    rw [← fraction_div]
    push_cast
    ring
  obtain ⟨y, hy, -, herror⟩ := exists_nearest x.fraction_pos hproduct h
  exact ⟨y, hy, herror⟩

theorem exists_scaleDown {k : ℕ} (hk : 0 < k) (h : InRange (x.value / k)) :
    ∃ y, x.scaleDown k = some y ∧ y.Canonical ∧ |x.value / k - y.value| ≤ x.value / k / 2 ^ 53 := by
  have hquotient : (x.fraction.1 : ℚ) / (x.fraction.2 * k : ℕ) = x.value / k := by
    rw [← fraction_div, div_div]
    push_cast
    rfl
  exact exists_nearest (Nat.mul_pos x.fraction_pos hk) hquotient h

theorem round_eq {n : ℕ} (h : |x.value - n| < 1 / 2) : x.round = n := by
  have hd : (0 : ℚ) < x.fraction.2 := by exact_mod_cast x.fraction_pos
  rw [← fraction_div, abs_lt] at h
  have hlow : (2 * n : ℚ) * x.fraction.2 < 2 * x.fraction.1 + x.fraction.2 := by
    have : (n - 1 / 2 : ℚ) < x.fraction.1 / x.fraction.2 := by linarith
    rw [lt_div_iff₀ hd] at this
    linarith
  have hhigh : (2 * x.fraction.1 : ℚ) < (2 * n + 1) * x.fraction.2 := by
    have : (x.fraction.1 : ℚ) / x.fraction.2 < n + 1 / 2 := by linarith
    rw [div_lt_iff₀ hd] at this
    linarith
  have hlow' : 2 * n * x.fraction.2 < 2 * x.fraction.1 + x.fraction.2 := by exact_mod_cast hlow
  have hhigh' : 2 * x.fraction.1 < (2 * n + 1) * x.fraction.2 := by exact_mod_cast hhigh
  rw [round, Nat.div_eq_iff (by have := x.fraction_pos; omega)]
  constructor <;> grind

end Interconnect.Binary64
