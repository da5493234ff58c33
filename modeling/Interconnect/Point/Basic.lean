import Interconnect.Point.Clock
import Interconnect.Point.Endpoint
import Interconnect.Point.MemoryMapped
import Interconnect.Point.Conduit

/-! # Connection points

A declaration names the kind of a connection point and resolves to one point, or to
two for a clock declared with its reset. A point that reads parameters keeps the
declaration it came from, so that it can be resolved again when they change.
-/

namespace Interconnect

open Parameter (Environment)

namespace Point

inductive Kind where
  | clock
  | reset
  | clockReset
  | sink
  | source
  | master
  | slave
  | conduit
  deriving DecidableEq, Repr, Inhabited

namespace Kind

/-- The tag of a kind in a declaration. -/
def tag : Kind → String
  | clock => "Clock"
  | reset => "Reset"
  | clockReset => "ClockReset"
  | sink => "Sink"
  | source => "Source"
  | master => "MMMaster"
  | slave => "MMSlave"
  | conduit => "Conduit"

instance : ToString Kind := ⟨tag⟩

def all : List Kind := [clock, reset, clockReset, sink, source, master, slave, conduit]

/-- The kind with exactly the given tag. -/
def ofTag (tag : String) : Except Error Kind :=
  match all.find? fun k => k.tag == tag with
  | some k => .ok k
  | none => .error (.unknownKind tag)

end Kind

inductive Declaration where
  | clock (d : Clock.Declaration)
  | reset (d : Reset.Declaration)
  | clockReset (d : ClockReset)
  | sink (d : Endpoint.Declaration)
  | source (d : Endpoint.Declaration)
  | master (d : MemoryMapped.Declaration)
  | slave (d : MemoryMapped.Declaration)
  | conduit (d : Conduit.Declaration)
  deriving DecidableEq, Repr, Inhabited

namespace Declaration

def kind : Declaration → Kind
  | clock _ => .clock
  | reset _ => .reset
  | clockReset _ => .clockReset
  | sink _ => .sink
  | source _ => .source
  | master _ => .master
  | slave _ => .slave
  | conduit _ => .conduit

/-- The names that the declaration registers. -/
def names : Declaration → List String
  | clock d => [d.name]
  | reset d => [d.name]
  | clockReset d => [d.clock, d.reset]
  | sink d => [d.name]
  | source d => [d.name]
  | master d => [d.name]
  | slave d => [d.name]
  | conduit d => [d.name]

end Declaration

/-- What a connection point resolved to. -/
inductive Record where
  | clock (record : Clock)
  | reset (record : Reset)
  | endpoint (record : Endpoint)
  | memoryMapped (record : MemoryMapped)
  | conduit (record : Conduit)
  deriving DecidableEq, Repr, Inhabited

namespace Record

def name : Record → String
  | clock r => r.name
  | reset r => r.name
  | endpoint r => r.name
  | memoryMapped r => r.name
  | conduit r => r.name

/-- The kind that the point would be declared with. -/
def kind : Record → Kind
  | clock _ => .clock
  | reset _ => .reset
  | endpoint r =>
    match r.direction with
    | .sink => .sink
    | .source => .source
  | memoryMapped r =>
    match r.role with
    | .slave => .slave
    | .master => .master
  | conduit _ => .conduit

/-- The associated clock: a clock has none. -/
def clock? : Record → Option String
  | clock _ => none
  | reset r => some r.clock
  | endpoint r => some r.clock
  | memoryMapped r => some r.clock
  | conduit r => r.clock

/-- The associated reset: clocks and resets have none. -/
def reset? : Record → Option String
  | clock _ => none
  | reset _ => none
  | endpoint r => some r.reset
  | memoryMapped r => some r.reset
  | conduit r => r.reset

def endpoint? : Record → Option Endpoint
  | endpoint r => some r
  | _ => none

def memoryMapped? : Record → Option MemoryMapped
  | memoryMapped r => some r
  | _ => none

def outline : Record → List Outline
  | clock r => r.outline
  | reset r => r.outline
  | endpoint r => r.outline
  | memoryMapped r => r.outline
  | conduit r => r.outline

end Record

end Point

/-- A resolved connection point, with the declaration behind it where it can change. -/
inductive Point where
  | clock (record : Clock)
  | reset (record : Reset)
  | endpoint (declaration : Endpoint.Declaration) (record : Endpoint)
  | memoryMapped (declaration : MemoryMapped.Declaration) (record : MemoryMapped)
  | conduit (declaration : Conduit.Declaration) (record : Conduit)
  deriving DecidableEq, Repr, Inhabited

namespace Point

def record : Point → Record
  | clock r => .clock r
  | reset r => .reset r
  | endpoint _ r => .endpoint r
  | memoryMapped _ r => .memoryMapped r
  | conduit _ r => .conduit r

def name (p : Point) : String := p.record.name

def outline (p : Point) : List Outline := p.record.outline

/-- The fields that were read from parameters, in a fixed order, each with its
parameter. -/
def symbolicFields : Point → List (String × String)
  | clock _ => []
  | reset _ => []
  | endpoint d r => r.symbolicFields d
  | memoryMapped _ r => r.symbolicFields
  | conduit _ r => r.symbolicFields

def ofClock (d : Clock.Declaration) : Except Error Point := (Clock.resolve d).map clock

def ofReset (d : Reset.Declaration) : Except Error Point := (Reset.resolve d).map reset

def ofEndpoint (env : Environment) (direction : Endpoint.Direction)
    (d : Endpoint.Declaration) : Except Error Point :=
  (Endpoint.resolve env direction d).map (endpoint d)

def ofMemoryMapped (env : Environment) (role : MemoryMapped.Role)
    (d : MemoryMapped.Declaration) : Except Error Point :=
  (MemoryMapped.resolve env role d).map (memoryMapped d)

def ofConduit (env : Environment) (d : Conduit.Declaration) : Except Error Point :=
  (Conduit.resolve env d).map (conduit d)

/-- The points of a declaration, in order. -/
def ofDeclaration (env : Environment) : Declaration → Except Error (List Point)
  | .clock d => (ofClock d).map ([·])
  | .reset d => (ofReset d).map ([·])
  | .clockReset d => do
    let clock ← ofClock d.clockDeclaration
    let reset ← ofReset d.resetDeclaration
    .ok [clock, reset]
  | .sink d => (ofEndpoint env .sink d).map ([·])
  | .source d => (ofEndpoint env .source d).map ([·])
  | .master d => (ofMemoryMapped env .master d).map ([·])
  | .slave d => (ofMemoryMapped env .slave d).map ([·])
  | .conduit d => (ofConduit env d).map ([·])

/-- The point resolved again from its declaration. Clocks and resets stay. -/
def refresh (env : Environment) : Point → Except Error Point
  | clock r => .ok (clock r)
  | reset r => .ok (reset r)
  | endpoint d r => ofEndpoint env r.direction d
  | memoryMapped d r => ofMemoryMapped env r.role d
  | conduit d _ => ofConduit env d

end Point

end Interconnect
