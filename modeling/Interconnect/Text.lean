/-! # Text rules

Blank characters, trimming, ASCII case folding and decimal digit strings: the
readings of text that a description relies on. Every rule is stated on the list
of characters.
-/

namespace Interconnect.Text

/-- Whether `c` has the Unicode property `White_Space`. -/
def isBlank (c : Char) : Bool :=
  let n := c.toNat
  (0x9 ≤ n && n ≤ 0xD) || n == 0x20 || n == 0x85 || n == 0xA0 || n == 0x1680 ||
    (0x2000 ≤ n && n ≤ 0x200A) || n == 0x2028 || n == 0x2029 || n == 0x202F ||
    n == 0x205F || n == 0x3000

/-- The characters without the blanks at both ends. -/
def trimmed (cs : List Char) : List Char :=
  ((cs.dropWhile isBlank).reverse.dropWhile isBlank).reverse

def trim (s : String) : String := String.ofList (trimmed s.toList)

/-- A text with nothing but blanks in it, which names nothing. -/
def isBlankText (s : String) : Bool := s.toList.all isBlank

/-- Lower case for the ASCII letters; every other character stays. -/
def lower (s : String) : String := String.ofList (s.toList.map Char.toLower)

/-- Upper case for the ASCII letters; every other character stays. -/
def upper (s : String) : String := String.ofList (s.toList.map Char.toUpper)

/-- A non-empty run of the digits `0` to `9`. -/
def isDigits (s : String) : Bool := !s.toList.isEmpty && s.toList.all Char.isDigit

/-- The number that a digit string denotes, when it fits in 64 bits. -/
def number? (s : String) : Option UInt64 :=
  let n := Nat.ofDigitChars 10 s.toList 0
  if n < UInt64.size then some (UInt64.ofNat n) else none

/-- Whether `s` can name a parameter in a field that also takes literals. -/
def isSymbol (s : String) : Bool :=
  match s.toList with
  | c :: _ => c.isAlpha || c == '_'
  | [] => false

end Interconnect.Text
