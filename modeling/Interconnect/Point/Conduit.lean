import Interconnect.Resolved

/-! # Conduits

A conduit is a bundle of loose signals, each with a direction and a width.
-/

namespace Interconnect

open Parameter (Environment)

namespace Conduit

structure SignalDeclaration where
  name : String
  direction : String
  width : Scalar
  deriving DecidableEq, Repr, Inhabited

structure Declaration where
  name : String
  clock : Option String := none
  reset : Option String := none
  signals : List SignalDeclaration := []
  deriving DecidableEq, Repr, Inhabited

/-- The direction of a signal as the component sees it. -/
inductive Direction where
  | input
  | output
  | bidirectional
  deriving DecidableEq, Repr, Inhabited

namespace Direction

def render : Direction → String
  | input => "Input"
  | output => "Output"
  | bidirectional => "Bidir"

instance : ToString Direction := ⟨render⟩

/-- The names of a direction in lower case. -/
def names : Direction → List String
  | input => ["input", "in"]
  | output => ["output", "out"]
  | bidirectional => ["bidir", "inout"]

/-- The direction with the given name, in any case. -/
def ofName? (name : String) : Option Direction :=
  [input, output, bidirectional].find? fun d => d.names.contains (Text.lower name)

end Direction

structure ConduitSignal where
  name : String
  direction : Direction
  width : Resolved UInt64
  deriving DecidableEq, Repr, Inhabited

/-- The direction of a signal is settled before its width. -/
def ConduitSignal.resolve (env : Environment) (point : String) (d : SignalDeclaration) :
    Except Point.Error ConduitSignal :=
  match Direction.ofName? d.direction with
  | none => .error (.invalidDirection point d.name d.direction)
  | some direction => do
    let width ←
      Resolved.orElse (.invalidSignalWidth point d.name d.width.render)
        (Resolved.natural? env point "signal width" d.width)
    .ok ⟨d.name, direction, width⟩

end Conduit

/-- A resolved conduit. -/
structure Conduit where
  name : String
  clock : Option String
  reset : Option String
  signals : List Conduit.ConduitSignal
  deriving DecidableEq, Repr, Inhabited

namespace Conduit

def resolve (env : Environment) (d : Declaration) : Except Point.Error Conduit := do
  let signals ← d.signals.mapM (ConduitSignal.resolve env d.name)
  .ok ⟨d.name, d.clock, d.reset, signals⟩

/-- The signals whose widths were read from parameters, each with its parameter. -/
def symbolicFields (c : Conduit) : List (String × String) :=
  c.signals.flatMap fun s => s.width.symbolic s.name

def outline (c : Conduit) : List Outline :=
  [.line s!"Connection Point Conduit: {c.name}",
   .nested (
    .line s!"associated clock and reset: {nameOrNone c.clock}, {nameOrNone c.reset}" ::
      c.signals.map fun s => .line s!"{s.name} : {s.direction} width: {s.width}")]

end Conduit

end Interconnect
