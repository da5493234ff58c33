import Interconnect.Decimal

/-! # Binary64 numbers

Non-negative binary64 numbers in exact integer arithmetic: the number nearest to a
fraction, a half going to the even neighbour, and the shortest decimal that reads
back. Where a result may be too large, `none` stands for infinity.
-/

namespace Interconnect

/-- The number `mantissa * 2 ^ exponent`, with a mantissa below `2 ^ 53` that is
at least `2 ^ 52` unless the exponent is the least one. -/
structure Binary64 where
  mantissa : Nat
  exponent : Int
  deriving DecidableEq, Repr, Inhabited

namespace Binary64

open Nat (pow)

/-- The least mantissa of the numbers that are not subnormal. -/
def leadingBit : Nat := pow 2 52

/-- The exponent of the subnormal numbers. -/
def minExponent : Int := -1074

/-- The exponent of the largest finite numbers. -/
def maxExponent : Int := 971

/-- `num / den` rounded to an integer, a half going to the even neighbour. -/
def roundEven (num den : Nat) : Nat :=
  let q := num / den
  let r := num % den
  if 2 * r < den then q else if den < 2 * r then q + 1 else q + q % 2

/-- The fraction `num / den / 2 ^ e`. -/
def scaled (num den : Nat) (e : Int) : Nat × Nat :=
  if 0 ≤ e then (num, den * pow 2 e.toNat) else (num * pow 2 (-e).toNat, den)

/-- The exponent at which `num / den` has a mantissa of 53 bits. -/
def exponentOf (num den : Nat) : Int :=
  let guess : Int := (num.log2 : Int) - den.log2 - 52
  let (n, d) := scaled num den guess
  if n < leadingBit * d then guess - 1 else guess

/-- The binary64 number nearest to `num / den`. -/
def nearest (num den : Nat) : Option Binary64 :=
  if num = 0 then some ⟨0, minExponent⟩
  else
    let e := max (exponentOf num den) minExponent
    let (n, d) := scaled num den e
    let m := roundEven n d
    let x : Binary64 := if m = 2 * leadingBit then ⟨leadingBit, e + 1⟩ else ⟨m, e⟩
    if maxExponent < x.exponent then none else some x

/-- The number as an exact fraction. -/
def fraction (x : Binary64) : Nat × Nat :=
  if 0 ≤ x.exponent then (x.mantissa * pow 2 x.exponent.toNat, 1)
  else (x.mantissa, pow 2 (-x.exponent).toNat)

/-- The product with an integer, rounded. -/
def scaleUp (x : Binary64) (k : Nat) : Option Binary64 :=
  let (n, d) := x.fraction
  nearest (n * k) d

/-- The quotient by an integer, rounded. -/
def scaleDown (x : Binary64) (k : Nat) : Option Binary64 :=
  let (n, d) := x.fraction
  nearest n (d * k)

/-- The number rounded to an integer, a half going up. -/
def round (x : Binary64) : Nat :=
  let (n, d) := x.fraction
  (2 * n + d) / (2 * d)

/-- The number nearest to a decimal. A decimal beyond `10 ^ 310` is infinite and one
below `10 ^ (-330)` is zero, so that no larger power is formed. -/
def ofDecimal (d : Decimal) : Option Binary64 :=
  let top := d.length + d.exponent
  if d.coefficient = 0 || top < -330 then some ⟨0, minExponent⟩
  else if 310 < top then none
  else if 0 ≤ d.exponent then nearest (d.coefficient * pow 10 d.exponent.toNat) 1
  else nearest d.coefficient (pow 10 (-d.exponent).toNat)

/-- The decimal that is exactly the number. -/
def exactDecimal (x : Binary64) : Decimal :=
  if 0 ≤ x.exponent then ⟨x.mantissa * pow 2 x.exponent.toNat, 0⟩
  else ⟨x.mantissa * pow 5 (-x.exponent).toNat, x.exponent⟩

/-- The ends of the interval that rounds to the number, in quarters of its last
place. Below a power of two the lower half is half as wide. -/
def interval (x : Binary64) : Nat × Nat :=
  let lower := if x.mantissa = leadingBit && minExponent < x.exponent then 1 else 2
  (4 * x.mantissa - lower, 4 * x.mantissa + 2)

/-- A quarter of the last place, measured in units of `10 ^ p`, as a fraction. -/
def quarter (x : Binary64) (p : Int) : Nat × Nat :=
  let e := x.exponent - 2
  (pow 2 e.toNat * pow 10 (-p).toNat, pow 2 (-e).toNat * pow 10 p.toNat)

/-- The multiple of `10 ^ p` that rounds to the number and is nearest to it, of two
equally near ones the larger. The ends of the interval belong to even mantissas. -/
def onGrid? (x : Binary64) (p : Int) : Option Nat :=
  let (n, d) := x.quarter p
  let (lower, upper) := x.interval
  let inside (k : Nat) : Bool :=
    if x.mantissa % 2 = 0 then lower * n ≤ k * d && k * d ≤ upper * n
    else lower * n < k * d && k * d < upper * n
  let v := 4 * x.mantissa * n
  let k := v / d
  match inside k, inside (k + 1) with
  | true, true => some (if 2 * (v - k * d) < d then k else k + 1)
  | true, false => some k
  | false, true => some (k + 1)
  | false, false => none

/-- The first hit on the grids `10 ^ p`, `10 ^ (p - 1)`, … -/
def shortestFrom (x : Binary64) : Nat → Int → Decimal
  | 0, _ => x.exactDecimal
  | steps + 1, p =>
    match x.onGrid? p with
    | some k => ⟨k, p⟩
    | none => shortestFrom x steps (p - 1)

/-- The decimal with the fewest digits that reads back as the number. The search
starts above the number and ends at the grid that holds it exactly. -/
def shortest (x : Binary64) : Decimal :=
  let top := (Nat.toDigits 10 (x.fraction.1 / x.fraction.2)).length
  shortestFrom x (top - min x.exponent 0 + 1).toNat top

/-- The shortest decimal in positional notation. -/
def render : Option Binary64 → String
  | some x => x.shortest.positional
  | none => "inf"

end Binary64

end Interconnect
