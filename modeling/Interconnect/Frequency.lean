import Interconnect.Binary64

/-! # Clock frequencies

A frequency is stored in whole hertz, zero meaning that no rate is given. It is read
from a number with an optional unit and written in the largest unit in which it has
at most three further decimal groups. Both ways go through binary64 arithmetic.
-/

namespace Interconnect

structure Frequency where
  hz : UInt64
  deriving DecidableEq, Repr, Inhabited

namespace Frequency

/-- No rate given. -/
def unspecified : Frequency := ⟨0⟩

def isUnspecified (f : Frequency) : Bool := f.hz == 0

def kilo : Nat := 1000

def mega : Nat := 1000 * kilo

def giga : Nat := 1000 * mega

/-- The units as read, longest first: each with the hertz it stands for. -/
def units : List (String × Nat) :=
  [("ghz", giga), ("mhz", mega), ("khz", kilo), ("hz", 1)]

/-- The number part of a text in lower case, and the hertz that its unit stands for;
without a unit the number counts hertz. -/
def splitUnit (cs : List Char) : List Char × Nat :=
  match units.find? fun u => u.1.toList.isSuffixOf cs with
  | some (unit, scale) => (cs.take (cs.length - unit.length), scale)
  | none => (cs, 1)

/-- The nearest whole number of hertz, at most the largest word. -/
def ofBinary64 : Option Binary64 → Frequency
  | some x => ⟨UInt64.ofNat (min x.round (UInt64.size - 1))⟩
  | none => ⟨UInt64.ofNat (UInt64.size - 1)⟩

/-- The text that is not a frequency, without the blanks around it. -/
structure ParseError where
  input : String
  deriving DecidableEq, Repr

def ParseError.message (e : ParseError) : String := s!"invalid frequency: '{e.input}'"

/-- Reads a number with an optional unit in any case. A number that is infinite or
below zero is refused; one that rounds to zero has no sign. -/
def parse? (s : String) : Option Frequency :=
  let (number, scale) := splitUnit ((Text.trimmed s.toList).map Char.toLower)
  match Decimal.parse? (Text.trimmed number) with
  | none => none
  | some (negative, d) =>
    match Binary64.ofDecimal d with
    | none => none
    | some x =>
      if negative && x.mantissa != 0 then none else some (ofBinary64 (x.scaleUp scale))

def parse (s : String) : Except ParseError Frequency :=
  match parse? s with
  | some f => .ok f
  | none => .error ⟨Text.trim s⟩

/-- The frequency counted in units of `scale` hertz. -/
def inUnits (f : Frequency) (scale : Nat) : Option Binary64 :=
  match Binary64.nearest f.hz.toNat 1 with
  | some x => x.scaleDown scale
  | none => none

/-- Gigahertz for whole megahertz, megahertz for whole kilohertz, else kilohertz,
each from one unit upwards; below that plain hertz. -/
def render (f : Frequency) : String :=
  let hz := f.hz.toNat
  if giga ≤ hz ∧ hz % mega = 0 then Binary64.render (f.inUnits giga) ++ "GHz"
  else if mega ≤ hz ∧ hz % kilo = 0 then Binary64.render (f.inUnits mega) ++ "MHz"
  else if kilo ≤ hz then Binary64.render (f.inUnits kilo) ++ "KHz"
  else toString hz ++ "Hz"

instance : ToString Frequency := ⟨render⟩

end Frequency

end Interconnect
