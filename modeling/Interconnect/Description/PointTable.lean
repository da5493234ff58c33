import Interconnect.Description.Error
import Interconnect.Point.Basic
import Interconnect.Toml.Fields

/-! # Declarations of connection points in TOML

A connection point is a table whose `kind` says which fields it has. The kind is settled
before any field is read. The parts of a declaration may be tables or arrays.
-/

namespace Interconnect.Description.PointTable

open Toml (Convention Fields Value)

/-- A date-time is a text, and an array has no surplus items. -/
def convention : Convention := ⟨true, false⟩

def text (v : Value) : Option String := v.text? convention

def scalar (v : Value) : Option Scalar := v.scalar? convention

/-- A part of a declaration with the given fields. -/
def part {α : Type} (names : List String) (read : Fields → Option α) (v : Value) : Option α :=
  (v.fields? convention names).bind read

def clock (fs : Fields) : Option Clock.Declaration := do
  let name ← fs.required "name" text
  let rate ← fs.optional "rate" scalar
  return { name, rate }

def reset (fs : Fields) : Option Reset.Declaration := do
  let name ← fs.required "name" text
  let clock ← fs.required "clock" text
  let edges ← fs.optional "edges" text
  return { name, clock, edges }

def clockReset (fs : Fields) : Option ClockReset := do
  let clock ← fs.required "clock" text
  let rate ← fs.optional "rate" scalar
  let reset ← fs.required "reset" text
  let edges ← fs.optional "edges" text
  return { clock, rate, reset, edges }

def data : Value → Option Endpoint.DataDeclaration :=
  part ["name", "width", "symbol_width", "handshake"] fun fs => do
    let name ← fs.required "name" text
    let width ← fs.required "width" scalar
    let symbolWidth ← fs.optional "symbol_width" scalar
    let handshake ← fs.optional "handshake" text
    return { name, width, symbolWidth, handshake }

def packets : Value → Option Endpoint.PacketDeclaration :=
  part ["use_packets", "use_empty"] fun fs => do
    let usePackets ← fs.required "use_packets" scalar
    let useEmpty ← fs.optional "use_empty" scalar
    return { usePackets, useEmpty }

def channel : Value → Option Endpoint.ChannelDeclaration :=
  part ["use_channel", "max_channel"] fun fs => do
    let useChannel ← fs.required "use_channel" scalar
    let maxChannel ← fs.optional "max_channel" scalar
    return { useChannel, maxChannel }

def error : Value → Option Endpoint.ErrorDeclaration :=
  part ["width", "descriptors"] fun fs => do
    let width ← fs.required "width" scalar
    let descriptors ← fs.orDefault "descriptors" [] (·.list? text)
    return { width, descriptors }

def endpoint (fs : Fields) : Option Endpoint.Declaration := do
  let name ← fs.required "name" text
  let clock ← fs.required "clock" text
  let reset ← fs.required "reset" text
  let data ← fs.required "data" data
  let packets ← fs.optional "packets" packets
  let channel ← fs.optional "channel" channel
  let error ← fs.optional "error" error
  return { name, clock, reset, data, packets, channel, error }

def address : Value → Option MemoryMapped.AddressDeclaration :=
  part ["name", "width"] fun fs => do
    let name ← fs.required "name" text
    let width ← fs.required "width" scalar
    return { name, width }

def burst : Value → Option MemoryMapped.BurstDeclaration :=
  part ["name", "max_count", "width", "on_boundaries_only", "line_wrap"] fun fs => do
    let name ← fs.required "name" text
    let maxCount ← fs.required "max_count" scalar
    let width ← fs.optional "width" scalar
    let onBoundariesOnly ← fs.optional "on_boundaries_only" scalar
    let lineWrap ← fs.optional "line_wrap" scalar
    return { name, maxCount, width, onBoundariesOnly, lineWrap }

def write : Value → Option MemoryMapped.WriteDeclaration :=
  part ["data", "strobe", "symbol_width", "byte_enable", "wait_time", "hold_time"] fun fs => do
    let data ← fs.required "data" text
    let strobe ← fs.required "strobe" text
    let symbolWidth ← fs.optional "symbol_width" scalar
    let byteEnable ← fs.optional "byte_enable" text
    let waitTime ← fs.optional "wait_time" scalar
    let holdTime ← fs.optional "hold_time" scalar
    return { data, strobe, symbolWidth, byteEnable, waitTime, holdTime }

def read : Value → Option MemoryMapped.ReadDeclaration :=
  part ["strobe", "data", "max_pending", "wait_time", "latency"] fun fs => do
    let strobe ← fs.required "strobe" text
    let data ← fs.required "data" text
    let maxPending ← fs.optional "max_pending" scalar
    let waitTime ← fs.optional "wait_time" scalar
    let latency ← fs.optional "latency" scalar
    return { strobe, data, maxPending, waitTime, latency }

def memoryMapped (fs : Fields) : Option MemoryMapped.Declaration := do
  let name ← fs.required "name" text
  let clock ← fs.required "clock" text
  let reset ← fs.required "reset" text
  let address ← fs.optional "address" address
  let burst ← fs.optional "burst" burst
  let dataWidth ← fs.optional "data_width" scalar
  let write ← fs.optional "write" write
  let read ← fs.optional "read" read
  let waitRequest ← fs.optional "wait_request" text
  let readDataValid ← fs.optional "read_data_valid" text
  let setupTime ← fs.optional "setup_time" scalar
  let bridgesToMaster ← fs.optional "bridges_to_master" scalar
  return { name, clock, reset, address, burst, dataWidth, write, read, waitRequest,
           readDataValid, setupTime, bridgesToMaster }

def signal : Value → Option Conduit.SignalDeclaration :=
  part ["name", "direction", "width"] fun fs => do
    let name ← fs.required "name" text
    let direction ← fs.required "direction" text
    let width ← fs.required "width" scalar
    return { name, direction, width }

def conduit (fs : Fields) : Option Conduit.Declaration := do
  let name ← fs.required "name" text
  let clock ← fs.optional "clock" text
  let reset ← fs.optional "reset" text
  let signals ← fs.orDefault "signals" [] (·.list? signal)
  return { name, clock, reset, signals }

/-- The declaration of a kind from its fields. -/
def ofKind? (fs : Fields) : Point.Kind → Option Point.Declaration
  | .clock => (clock fs).map .clock
  | .reset => (reset fs).map .reset
  | .clockReset => (clockReset fs).map .clockReset
  | .sink => (endpoint fs).map .sink
  | .source => (endpoint fs).map .source
  | .master => (memoryMapped fs).map .master
  | .slave => (memoryMapped fs).map .slave
  | .conduit => (conduit fs).map .conduit

/-- The kind that a table names. It must be a plain text. -/
def kind (index : Nat) (fs : Fields) : Except Error Point.Kind :=
  match fs.lookup "kind" with
  | some (.text tag) => (Point.Kind.ofTag tag).mapError .point
  | some v => .error (.kindNotText index v.typeName)
  | none => .error (.missingField s!"connection_point[{index}].kind")

/-- The declaration in the table at the given index. -/
def declaration (index : Nat) (fs : Fields) : Except Error Point.Declaration :=
  match kind index fs with
  | .error e => .error e
  | .ok k =>
    match ofKind? fs k with
    | some d => .ok d
    | none => .error (.malformedPoint index)

end Interconnect.Description.PointTable
