import Interconnect.Frequency
import Interconnect.Scalar
import Interconnect.Outline
import Interconnect.Point.Error

/-! # Clocks and resets

A clock has a nominal rate. A reset belongs to a clock and may say which of its edges
are synchronous to it. Neither reads parameters. A clock and its reset can be
declared together, and then stand for one declaration of each.
-/

namespace Interconnect

structure Clock where
  name : String
  rate : Frequency
  deriving DecidableEq, Repr, Inhabited

namespace Clock

/-- A clock with a rate in hertz or as a text with a unit. -/
structure Declaration where
  name : String
  rate : Option Scalar := none
  deriving DecidableEq, Repr, Inhabited

def resolve (d : Declaration) : Except Point.Error Clock :=
  match d.rate with
  | none => .ok ⟨d.name, .unspecified⟩
  | some (.number hz) => .ok ⟨d.name, ⟨hz⟩⟩
  | some (.text s) =>
    match Frequency.parse? s with
    | some rate => .ok ⟨d.name, rate⟩
    | none => .error (.invalidClockRate d.name s)
  | some (.flag b) => .error (.invalidClockRate d.name (toString b))

def outline (c : Clock) : List Outline :=
  let rate := if c.rate.isUnspecified then "unspecified rate" else c.rate.render
  [.line s!"Connection Point Clock: {c.name} : {rate}"]

end Clock

/-- Which edges of a reset are synchronous to its clock. -/
inductive Edges where
  | deassert
  | both
  | none
  deriving DecidableEq, Repr, Inhabited

namespace Edges

def render : Edges → String
  | deassert => "DEASSERT"
  | both => "BOTH"
  | none => "NONE"

instance : ToString Edges := ⟨render⟩

/-- The policy with the given name, in any case. -/
def ofName? (name : String) : Option Edges :=
  [deassert, both, none].find? fun e => e.render == Text.upper name

end Edges

structure Reset where
  name : String
  clock : String
  edges : Option Edges
  deriving DecidableEq, Repr, Inhabited

namespace Reset

structure Declaration where
  name : String
  clock : String
  edges : Option String := none
  deriving DecidableEq, Repr, Inhabited

def resolve (d : Declaration) : Except Point.Error Reset :=
  match d.edges with
  | none => .ok ⟨d.name, d.clock, none⟩
  | some name =>
    match Edges.ofName? name with
    | some edges => .ok ⟨d.name, d.clock, some edges⟩
    | none => .error (.invalidEdges d.name name)

def outline (r : Reset) : List Outline :=
  let edges := match r.edges with
    | some e => e.render
    | none => "unspecified"
  [.line s!"Connection Point Reset: {r.name}, associated clock: {r.clock}, edges: {edges}"]

end Reset

/-- A clock and its reset in one declaration. -/
structure ClockReset where
  clock : String
  rate : Option Scalar := none
  reset : String
  edges : Option String := none
  deriving DecidableEq, Repr, Inhabited

namespace ClockReset

def clockDeclaration (d : ClockReset) : Clock.Declaration := ⟨d.clock, d.rate⟩

def resetDeclaration (d : ClockReset) : Reset.Declaration := ⟨d.reset, d.clock, d.edges⟩

end ClockReset

end Interconnect
