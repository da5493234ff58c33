/-! # TOML values

The values of a TOML document. A float is kept as its numeral, since no description
reads one. A date-time has a canonical text: `T` between date and time, `Z` for a zero
offset written as such, and no trailing zeros in the fraction of a second.
-/

namespace Interconnect.Toml

structure Date where
  year : Nat
  month : Nat
  day : Nat
  deriving DecidableEq, Repr, Inhabited

structure Time where
  hour : Nat
  minute : Nat
  second : Nat
  nanosecond : Nat
  deriving DecidableEq, Repr, Inhabited

inductive Offset where
  | utc
  | minutes (m : Int)
  deriving DecidableEq, Repr, Inhabited

/-- A date, a time of day, or both with an optional offset. -/
inductive DateTime where
  | date (d : Date)
  | time (t : Time)
  | both (d : Date) (t : Time) (offset : Option Offset)
  deriving DecidableEq, Repr, Inhabited

/-- Decimal digits with zeros in front, up to the given width. -/
def padded (width n : Nat) : List Char :=
  let ds := Nat.toDigits 10 n
  List.replicate (width - ds.length) '0' ++ ds

def Date.render (d : Date) : List Char :=
  padded 4 d.year ++ '-' :: padded 2 d.month ++ '-' :: padded 2 d.day

def Time.render (t : Time) : List Char :=
  let clock := padded 2 t.hour ++ ':' :: padded 2 t.minute ++ ':' :: padded 2 t.second
  if t.nanosecond = 0 then clock
  else clock ++ '.' :: ((padded 9 t.nanosecond).reverse.dropWhile (· == '0')).reverse

def Offset.render : Offset → List Char
  | utc => ['Z']
  | minutes m =>
    (if m < 0 then '-' else '+') :: padded 2 (m.natAbs / 60) ++ ':' :: padded 2 (m.natAbs % 60)

/-- The canonical text of a date-time. -/
def DateTime.render : DateTime → String
  | date d => String.ofList d.render
  | time t => String.ofList t.render
  | both d t offset =>
    String.ofList (d.render ++ 'T' :: t.render ++ offset.toList.flatMap Offset.render)

inductive Value where
  | text (s : String)
  | integer (n : Int)
  | float (numeral : String)
  | boolean (b : Bool)
  | dateTime (d : DateTime)
  | array (items : List Value)
  | table (entries : List (String × Value))
  deriving Inhabited

/-- The name of the type of a value. -/
def Value.typeName : Value → String
  | text _ => "string"
  | integer _ => "integer"
  | float _ => "float"
  | boolean _ => "boolean"
  | dateTime _ => "datetime"
  | array _ => "array"
  | table _ => "table"

end Interconnect.Toml
