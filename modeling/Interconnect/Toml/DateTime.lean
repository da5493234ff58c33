import Interconnect.Toml.Reader
import Interconnect.Toml.Value

/-! # Date-times

Dates, times and offsets, as they are written in a document or alone in a text. A table
stands for a date-time when its first key is the reserved one: the text under that key
denotes the date-time.
-/

namespace Interconnect.Toml

namespace Reader

/-- A number of exactly `count` digits between two bounds. -/
def field (count low high : Nat) : Reader Nat := fun cs =>
  let ds := cs.take count
  let n := Nat.ofDigitChars 10 ds 0
  if ds.length = count && ds.all Char.isDigit && low ≤ n && n ≤ high then
    some (n, cs.drop count)
  else none

def isLeapYear (year : Nat) : Bool := year % 4 == 0 && (year % 100 != 0 || year % 400 == 0)

def daysInMonth (year month : Nat) : Nat :=
  if month = 2 then if isLeapYear year then 29 else 28
  else if month = 4 || month = 6 || month = 9 || month = 11 then 30
  else 31

def date : Reader Date := do
  let year ← field 4 0 9999
  char '-'
  let month ← field 2 1 12
  char '-'
  let day ← field 2 1 31
  if day ≤ daysInMonth year month then return ⟨year, month, day⟩ else failure

/-- The fraction of a second, of which nine digits count. -/
def nanoseconds : Reader Nat := do
  char '.'
  let d ← satisfying Char.isDigit
  let ds := d :: (← takeWhile Char.isDigit)
  return Nat.ofDigitChars 10 (ds.take 9) 0 * Nat.pow 10 (9 - ds.length)

/-- A time of day; second 60 is a leap second. -/
def time : Reader Time := do
  let hour ← field 2 0 23
  char ':'
  let minute ← field 2 0 59
  char ':'
  let second ← field 2 0 60
  let fraction ← optional nanoseconds
  return ⟨hour, minute, second, fraction.getD 0⟩

/-- The hours and minutes of an offset, in minutes. -/
def offsetAmount : Reader Int := do
  let hours ← field 2 0 23
  char ':'
  let minutes ← field 2 0 59
  return (60 * hours + minutes : Nat)

def offset : Reader Offset := do
  match ← satisfying fun c => c == 'Z' || c == 'z' || c == '+' || c == '-' with
  | '+' => return .minutes (← offsetAmount)
  | '-' => return .minutes (-(← offsetAmount))
  | _ => return .utc

/-- A date, a time, or both. Only both together have an offset. -/
def dateTime : Reader DateTime := do
  match ← optional date with
  | none => return .time (← time)
  | some d =>
    let rest ← optional do
      let _ ← satisfying fun c => c == 'T' || c == 't' || c == ' '
      let t ← time
      return (t, ← optional offset)
    match rest with
    | some (t, offset) => return .both d t offset
    | none => return .date d

end Reader

/-- The date-time that a whole text denotes. -/
def DateTime.ofText? (s : String) : Option DateTime :=
  match Reader.dateTime s.toList with
  | some (d, []) => some d
  | _ => none

/-- The reserved key of a table that stands for a date-time. -/
def dateTimeKey : String := "$__toml_private_datetime"

namespace Value

/-- The value under the reserved key, when that key comes first. -/
def tagged? : List (String × Value) → Option Value
  | (key, v) :: _ => if key = dateTimeKey then some v else none
  | [] => none

/-- The date-time that a text denotes; no other value denotes one. -/
def denoted? : Value → Option DateTime
  | text s => DateTime.ofText? s
  | _ => none

mutual

/-- The value with a date-time for every table that stands for one. There is none when
what such a table holds under the reserved key denotes no date-time. -/
def settle? : Value → Option Value
  | array items => (settleItems? items).map array
  | table entries =>
    match tagged? entries with
    | some v => v.denoted?.map dateTime
    | none => (settleEntries? entries).map table
  | text s => some (text s)
  | integer n => some (integer n)
  | float numeral => some (float numeral)
  | boolean b => some (boolean b)
  | dateTime d => some (dateTime d)

def settleItems? : List Value → Option (List Value)
  | [] => some []
  | v :: rest => do return (← settle? v) :: (← settleItems? rest)

def settleEntries? : List (String × Value) → Option (List (String × Value))
  | [] => some []
  | (key, v) :: rest => do return (key, ← settle? v) :: (← settleEntries? rest)

end

end Value

end Interconnect.Toml
