import Interconnect.Width
import Interconnect.Resolved
import Interconnect.Point.Endpoint

/-! # Memory-mapped interfaces

A slave or master of a bus, with an optional address, burst count, write side and read
side. Resolution goes through address, burst, data width, write side, read side, setup
time and, for a slave, the bridging flag, and stops at the first fault.
-/

namespace Interconnect

open Parameter (Environment)

namespace MemoryMapped

structure AddressDeclaration where
  name : String
  width : Scalar
  deriving DecidableEq, Repr, Inhabited

/-- The burst count; without a width it is as wide as its largest count needs. -/
structure BurstDeclaration where
  name : String
  maxCount : Scalar
  width : Option Scalar := none
  onBoundariesOnly : Option Scalar := none
  lineWrap : Option Scalar := none
  deriving DecidableEq, Repr, Inhabited

structure WriteDeclaration where
  data : String
  strobe : String
  symbolWidth : Option Scalar := none
  byteEnable : Option String := none
  waitTime : Option Scalar := none
  holdTime : Option Scalar := none
  deriving DecidableEq, Repr, Inhabited

structure ReadDeclaration where
  strobe : String
  data : String
  maxPending : Option Scalar := none
  waitTime : Option Scalar := none
  latency : Option Scalar := none
  deriving DecidableEq, Repr, Inhabited

structure Declaration where
  name : String
  clock : String
  reset : String
  address : Option AddressDeclaration := none
  burst : Option BurstDeclaration := none
  dataWidth : Option Scalar := none
  write : Option WriteDeclaration := none
  read : Option ReadDeclaration := none
  waitRequest : Option String := none
  readDataValid : Option String := none
  setupTime : Option Scalar := none
  bridgesToMaster : Option Scalar := none
  deriving DecidableEq, Repr, Inhabited

/-- A slave answers transactions and a master issues them. -/
inductive Role where
  | slave
  | master
  deriving DecidableEq, Repr, Inhabited

def Role.render : Role → String
  | slave => "MMSlave"
  | master => "MMMaster"

instance : ToString Role := ⟨Role.render⟩

def defaultDataWidth : UInt64 := 32

def defaultSymbolWidth : UInt64 := 8

def defaultReadWaitTime : UInt64 := 1

structure Address where
  name : String
  width : Resolved UInt64
  deriving DecidableEq, Repr, Inhabited

/-- The address signal needs a name that is not blank. -/
def Address.resolve (env : Environment) (point : String) (d : AddressDeclaration) :
    Except Point.Error Address :=
  if Text.isBlankText d.name then
    .error (.invalidAddress point "address signal has no name")
  else do
    let width ←
      Resolved.orElse (.invalidAddress point s!"address width '{d.width}' is not a number")
        (Resolved.natural? env point "address width" d.width)
    .ok ⟨d.name, width⟩

structure Burst where
  name : String
  maxCount : Resolved UInt64
  width : Resolved UInt64
  onBoundariesOnly : Resolved Bool
  lineWrap : Resolved Bool
  deriving DecidableEq, Repr, Inhabited

namespace Burst

/-- The width for counts up to `maxCount`, at least one bit. -/
def computedWidth (maxCount : UInt64) : UInt64 := max 1 (Width.ofCount maxCount).toUInt64

def resolve (env : Environment) (point : String) (d : BurstDeclaration) :
    Except Point.Error Burst := do
  let maxCount ← Resolved.number env point "max burst count" d.maxCount
  let width ← Resolved.natural env point "burst width" d.width (computedWidth maxCount.value)
  let onBoundariesOnly ←
    Resolved.flag env point "burst on boundaries only" d.onBoundariesOnly false
  let lineWrap ← Resolved.flag env point "line wrap bursts" d.lineWrap false
  .ok ⟨d.name, maxCount, width, onBoundariesOnly, lineWrap⟩

end Burst

structure WriteSide where
  data : String
  strobe : String
  symbolWidth : Resolved UInt64
  byteEnable : Option Signal
  waitTime : Resolved UInt64
  holdTime : Resolved UInt64
  deriving DecidableEq, Repr, Inhabited

namespace WriteSide

/-- One enable bit for each symbol of the data; their number must fit in 32 bits. -/
def byteEnables (point : String) (dataWidth : UInt64) (symbolWidth : Resolved UInt64)
    (name : String) : Except Point.Error Signal := do
  let symbolWidth ← Resolved.positive point "symbol width" symbolWidth
  let count ← symbolCount point dataWidth symbolWidth.value
  if count.toNat < UInt32.size then .ok ⟨name, count.toUInt32⟩
  else .error (.invalidWidth point "byte enable width" (toString count))

def resolve (env : Environment) (point : String) (dataWidth : UInt64) (d : WriteDeclaration) :
    Except Point.Error WriteSide := do
  let symbolWidth ← Resolved.natural env point "symbol width" d.symbolWidth defaultSymbolWidth
  let byteEnable ← Endpoint.optionally (byteEnables point dataWidth symbolWidth) d.byteEnable
  let waitTime ← Resolved.natural env point "write wait time" d.waitTime 0
  let holdTime ← Resolved.natural env point "hold time" d.holdTime 0
  .ok ⟨d.data, d.strobe, symbolWidth, byteEnable, waitTime, holdTime⟩

end WriteSide

structure ReadSide where
  strobe : String
  data : String
  maxPending : Resolved UInt64
  waitTime : Resolved UInt64
  latency : Resolved UInt64
  deriving DecidableEq, Repr, Inhabited

def ReadSide.resolve (env : Environment) (point : String) (d : ReadDeclaration) :
    Except Point.Error ReadSide := do
  let maxPending ← Resolved.natural env point "max pending reads" d.maxPending 0
  let waitTime ← Resolved.natural env point "read wait time" d.waitTime defaultReadWaitTime
  let latency ← Resolved.natural env point "read latency" d.latency 0
  .ok ⟨d.strobe, d.data, maxPending, waitTime, latency⟩

/-- Whether a slave bridges to a master; on a master the field is not read. -/
def bridging (env : Environment) (point : String) (raw : Option Scalar) :
    Role → Except Point.Error (Option (Resolved Bool))
  | .slave => (Resolved.flag env point "bridges to master" raw false).map some
  | .master => .ok none

end MemoryMapped

/-- A resolved memory-mapped interface. -/
structure MemoryMapped where
  name : String
  role : MemoryMapped.Role
  clock : String
  reset : String
  address : Option MemoryMapped.Address
  burst : Option MemoryMapped.Burst
  dataWidth : Resolved UInt64
  write : Option MemoryMapped.WriteSide
  read : Option MemoryMapped.ReadSide
  waitRequest : Option String
  readDataValid : Option String
  setupTime : Resolved UInt64
  bridgesToMaster : Option (Resolved Bool)
  deriving DecidableEq, Repr, Inhabited

namespace MemoryMapped

open Endpoint (optionally)

def resolve (env : Environment) (role : Role) (d : Declaration) :
    Except Point.Error MemoryMapped := do
  let address ← optionally (Address.resolve env d.name) d.address
  let burst ← optionally (Burst.resolve env d.name) d.burst
  let dataWidth ← Resolved.natural env d.name "data width" d.dataWidth defaultDataWidth
  let dataWidth ← Resolved.positive d.name "data width" dataWidth
  let write ← optionally (WriteSide.resolve env d.name dataWidth.value) d.write
  let read ← optionally (ReadSide.resolve env d.name) d.read
  let setupTime ← Resolved.natural env d.name "setup time" d.setupTime 0
  let bridgesToMaster ← bridging env d.name d.bridgesToMaster role
  .ok
    { name := d.name, role, clock := d.clock, reset := d.reset, address, burst, dataWidth,
      write, read, waitRequest := d.waitRequest, readDataValid := d.readDataValid, setupTime,
      bridgesToMaster }

/-- The width of the burst count, when there is one. -/
def burstWidth? (m : MemoryMapped) : Option UInt64 := m.burst.map (·.width.value)

/-- The number of byte enables, when there are any. -/
def byteEnableWidth? (m : MemoryMapped) : Option UInt32 :=
  m.write.bind fun w => w.byteEnable.map (·.width)

/-- The fields that were read from parameters, each with its parameter. -/
def symbolicFields (m : MemoryMapped) : List (String × String) :=
  m.address.toList.flatMap (·.width.symbolic "address width")
    ++ m.burst.toList.flatMap (fun b =>
        b.maxCount.symbolic "max burst count"
          ++ b.width.symbolic "burst width"
          ++ b.onBoundariesOnly.symbolic "burst on boundaries only"
          ++ b.lineWrap.symbolic "line wrap bursts")
    ++ m.dataWidth.symbolic "data width"
    ++ m.write.toList.flatMap (fun w =>
        w.symbolWidth.symbolic "symbol width"
          ++ w.waitTime.symbolic "write wait time"
          ++ w.holdTime.symbolic "hold time")
    ++ m.read.toList.flatMap (fun r =>
        r.maxPending.symbolic "max pending reads"
          ++ r.waitTime.symbolic "read wait time"
          ++ r.latency.symbolic "read latency")
    ++ m.setupTime.symbolic "setup time"
    ++ m.bridgesToMaster.toList.flatMap (·.symbolic "bridges to master")

def Burst.line (b : Burst) : String :=
  s!"Burst: {b.name} max count: {b.maxCount}, width: {b.width}, "
    ++ s!"on boundaries only: {b.onBoundariesOnly}, line wrap: {b.lineWrap}"

def WriteSide.outline (w : WriteSide) : List Outline :=
  let enables := nameOrNone (w.byteEnable.map Signal.render)
  [.line (s!"Write: data: {w.data}, strobe: {w.strobe}, "
    ++ s!"symbol width: {w.symbolWidth}, byte enable: {enables},"),
   .nested [.line s!"wait time: {w.waitTime}, hold time: {w.holdTime}"]]

def ReadSide.line (r : ReadSide) : String :=
  s!"Read: strobe: {r.strobe}, data: {r.data}, max pending: {r.maxPending}, "
    ++ s!"wait time: {r.waitTime}, latency: {r.latency}"

def outline (m : MemoryMapped) : List Outline :=
  let address := match m.address with
    | some a => s!"Address: {a.name} width: {a.width}"
    | none => "Address: none"
  let bridging := match m.bridgesToMaster with
    | some b => s!", bridges to master: {b}"
    | none => ""
  [.line s!"Connection Point {m.role}: {m.name}",
   .nested (
    [.line s!"associated clock and reset: {m.clock}, {m.reset}",
     .line address]
    ++ m.burst.toList.map (fun b => .line b.line)
    ++ [.line s!"Data width: {m.dataWidth}"]
    ++ m.write.toList.flatMap WriteSide.outline
    ++ m.read.toList.map (fun r => .line r.line)
    ++ [.line (s!"Wait request: {nameOrNone m.waitRequest}, "
          ++ s!"read data valid: {nameOrNone m.readDataValid}"),
        .line (s!"Setup time: {m.setupTime}" ++ bridging)])]

end MemoryMapped

end Interconnect
