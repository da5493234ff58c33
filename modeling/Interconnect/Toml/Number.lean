import Interconnect.Binary64
import Interconnect.Toml.DateTime

/-! # Numbers of TOML

The readers of the bare values that begin with a digit or a sign. Digits may be kept
apart by single underscores. Integers have 64 bits, and a positive float must be
finite.
-/

namespace Interconnect.Toml.Reader

/-- Digits accepted by `digit`, single underscores between them left out. -/
def moreDigits (digit : Char → Bool) : List Char → Option (List Char × List Char)
  | '_' :: c :: cs =>
    if digit c then (moreDigits digit cs).map fun (ds, rest) => (c :: ds, rest) else none
  | c :: cs =>
    if digit c then (moreDigits digit cs).map fun (ds, rest) => (c :: ds, rest)
    else if c == '_' then none
    else some ([], c :: cs)
  | [] => some ([], [])

/-- A run of at least one digit. -/
def digits (digit : Char → Bool) : Reader (List Char) := do
  let d ← satisfying digit
  return d :: (← moreDigits digit)

def signChars : Reader (List Char) := do
  match ← optional (satisfying fun c => c == '+' || c == '-') with
  | some c => return [c]
  | none => return []

/-- A signed decimal integer without leading zeros. -/
def decimalInteger : Reader (List Char) := do
  let s ← signChars
  match ← optional (char '0') with
  | some _ => return s ++ ['0']
  | none => return s ++ (← digits Char.isDigit)

def exponentPart : Reader (List Char) := do
  let e ← satisfying fun c => c == 'e' || c == 'E'
  let s ← signChars
  return e :: s ++ (← digits Char.isDigit)

def fractionPart : Reader (List Char) := do
  char '.'
  return '.' :: (← digits Char.isDigit)

/-- Refuses the numerals that are too large, unless they are negative. -/
def checkFinite (numeral : List Char) : Reader Unit :=
  match Decimal.parse? numeral with
  | some (negative, d) =>
    if negative || (Binary64.ofDecimal d).isSome then pure () else failure
  | none => failure

def specialFloat : Reader (List Char) := do
  let s ← signChars
  match ← optional (exactly ['i', 'n', 'f']) with
  | some _ => return s ++ ['i', 'n', 'f']
  | none =>
    exactly ['n', 'a', 'n']
    return s ++ ['n', 'a', 'n']

/-- A decimal integer with a fraction, an exponent or both, or a special value. -/
def float : Reader Value := do
  let numeral ← (do
      let whole ← decimalInteger
      let fraction ← optional fractionPart
      let exponent ← optional exponentPart
      if fraction.isNone && exponent.isNone then failure
      let numeral := whole ++ fraction.getD [] ++ exponent.getD []
      checkFinite numeral
      return numeral)
    <|> specialFloat
  return .float (String.ofList numeral)

def word (n : Int) : Reader Value :=
  if -0x8000000000000000 ≤ n ∧ n < 0x8000000000000000 then pure (.integer n) else failure

/-- An integer with a base mark, which has no sign. -/
def based (mark : Char) (base : Nat) : Reader Value := do
  exactly ['0', mark]
  let ds ← digits fun c => (hexDigit? c).any (· < base)
  word (ds.foldl (fun n c => base * n + (hexDigit? c).getD 0) 0 : Nat)

def integer : Reader Value :=
  based 'x' 16 <|> based 'o' 8 <|> based 'b' 2 <|> do
    let numeral ← decimalInteger
    let (negative, ds) := Decimal.sign numeral
    let n : Int := Nat.ofDigitChars 10 ds 0
    word (if negative then -n else n)

/-- A bare value that begins with a digit or a sign. -/
def number : Reader Value := (do return .dateTime (← dateTime)) <|> float <|> integer

end Interconnect.Toml.Reader
