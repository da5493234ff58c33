import Interconnect.Text

/-! # Decimal numbers

A non-negative decimal is a coefficient times a power of ten. It is read from a
numeral with an optional sign, point and exponent, and written in positional
notation, without an exponent.
-/

namespace Interconnect

/-- The number `coefficient * 10 ^ exponent`. -/
structure Decimal where
  coefficient : Nat
  exponent : Int
  deriving DecidableEq, Repr, Inhabited

namespace Decimal

/-- A leading sign, and whether it is negative. -/
def sign : List Char → Bool × List Char
  | '-' :: cs => (true, cs)
  | '+' :: cs => (false, cs)
  | cs => (false, cs)

/-- A digit string as a number; there must be a digit and nothing else. -/
def digits? (cs : List Char) : Option Nat :=
  if !cs.isEmpty && cs.all Char.isDigit then some (Nat.ofDigitChars 10 cs 0) else none

/-- The exponent part of a numeral: nothing, or `e` with a signed digit string. -/
def exponent? : List Char → Option Int
  | [] => some 0
  | c :: cs =>
    if c == 'e' || c == 'E' then
      let (negative, ds) := sign cs
      (digits? ds).map fun n => if negative then -(n : Int) else n
    else none

/-- A numeral without its sign: digits around an optional point, at least one of
them, then the exponent part. -/
def unsigned? (cs : List Char) : Option Decimal :=
  let whole := cs.takeWhile Char.isDigit
  let rest := cs.dropWhile Char.isDigit
  let (fraction, rest) := match rest with
    | '.' :: rest => (rest.takeWhile Char.isDigit, rest.dropWhile Char.isDigit)
    | rest => ([], rest)
  if whole.isEmpty && fraction.isEmpty then none
  else (exponent? rest).map fun e =>
    ⟨Nat.ofDigitChars 10 (whole ++ fraction) 0, e - fraction.length⟩

/-- A numeral, with whether it carries a minus sign. -/
def parse? (cs : List Char) : Option (Bool × Decimal) :=
  let (negative, rest) := sign cs
  (unsigned? rest).map fun d => (negative, d)

/-- The number of digits of the coefficient. -/
def length (d : Decimal) : Nat := (Nat.toDigits 10 d.coefficient).length

/-- Positional notation; zero is `0`, and an integer has no point. -/
def positional (d : Decimal) : String :=
  let ds := Nat.toDigits 10 d.coefficient
  if d.coefficient = 0 then "0"
  else if 0 ≤ d.exponent then String.ofList (ds ++ List.replicate d.exponent.toNat '0')
  else
    let places := (-d.exponent).toNat
    let ds := List.replicate (places + 1 - ds.length) '0' ++ ds
    let whole := ds.length - places
    String.ofList (ds.take whole ++ '.' :: ds.drop whole)

end Decimal

end Interconnect
