import Interconnect.Width
import Mathlib.Algebra.Group.Nat.Defs
import Mathlib.Data.Nat.Log
import Mathlib.Order.Bounds.Defs

/-! # Laws of bit widths

A width is the least number of bits that holds a value, or that indexes a count of
values. The second is the logarithm of the count to base two, rounded up.
-/

namespace Interconnect.Width

theorem bitLength_le_iff {n w : Nat} : bitLength n ≤ w ↔ n < 2 ^ w := by
  by_cases h : n = 0
  · subst h
    exact iff_of_true (Nat.zero_le w) (Nat.two_pow_pos w)
  · rw [bitLength, if_neg h, Nat.add_one_le_iff]
    exact Nat.log2_lt h

theorem toNat_ofBitLength {n : Nat} (h : n < UInt64.size) :
    (UInt32.ofNat (bitLength n)).toNat = bitLength n := by
  have hlength : bitLength n ≤ 64 := bitLength_le_iff.mpr h
  apply UInt32.toNat_ofNat_of_lt
  exact Nat.lt_of_le_of_lt hlength (by decide)

theorem ofValue_le_iff {value : UInt64} {w : Nat} :
    (ofValue value).toNat ≤ w ↔ value.toNat < 2 ^ w := by
  rw [ofValue, toNat_ofBitLength value.toNat_lt, bitLength_le_iff]

/-- The indices of `count` values fit in `w` bits when the width is at most `w`. -/
theorem ofCount_le_iff {count : UInt64} {w : Nat} :
    (ofCount count).toNat ≤ w ↔ count.toNat ≤ 2 ^ w := by
  have hcount : count.toNat - 1 < UInt64.size := Nat.lt_of_le_of_lt (Nat.sub_le ..) count.toNat_lt
  have hpos : 0 < 2 ^ w := Nat.two_pow_pos w
  rw [ofCount, toNat_ofBitLength hcount, bitLength_le_iff]
  omega

theorem toNat_ofCount (count : UInt64) : (ofCount count).toNat = Nat.clog 2 count.toNat :=
  eq_of_forall_ge_iff fun _ =>
    ofCount_le_iff.trans (Nat.clog_le_iff_le_pow (by decide)).symm

theorem ofValue_le (value : UInt64) : (ofValue value).toNat ≤ 64 :=
  ofValue_le_iff.mpr value.toNat_lt

theorem ofCount_le (count : UInt64) : (ofCount count).toNat ≤ 64 :=
  ofCount_le_iff.mpr (Nat.le_of_lt count.toNat_lt)

theorem isLeast_ofCount (count : UInt64) :
    IsLeast {w : Nat | count.toNat ≤ 2 ^ w} (ofCount count).toNat :=
  ⟨ofCount_le_iff.mp (Nat.le_refl _), fun _ h => ofCount_le_iff.mpr h⟩

theorem one_le_ofCount {count : UInt64} (h : 1 < count.toNat) : 1 ≤ (ofCount count).toNat := by
  by_contra hlt
  have hle : count.toNat ≤ 2 ^ 0 := ofCount_le_iff.mp (by omega)
  omega

theorem isLeast_max_one {P : Nat → Prop} {n : Nat} (h : ∀ w, n ≤ w ↔ P w) :
    IsLeast {w | 1 ≤ w ∧ P w} (max 1 n) :=
  ⟨⟨Nat.le_max_left 1 n, (h _).mp (Nat.le_max_right 1 n)⟩,
    fun w hw => Nat.max_le.mpr ⟨hw.1, (h w).mpr hw.2⟩⟩

end Interconnect.Width
