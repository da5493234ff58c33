import Interconnect.Encoding
import Interconnect.Registry

/-! # Encodings of resolved models

The encoding of each record lists its fields in a fixed order. Written values and
allowed ranges are encoded as their bare contents, without saying which they are; the
declaration behind a point is not encoded.
-/

namespace Interconnect

open Encoding (Bytes)

def Scalar.encode : Scalar → Bytes
  | .flag b => Encoding.flag b
  | .number n => Encoding.number n
  | .text s => Encoding.text s

namespace Parameter

def Kind.index : Kind → Nat
  | natural => 0
  | boolean => 1
  | text => 2
  | heading => 3

def Value.encode : Value → Bytes
  | natural n => Encoding.count 0 ++ Encoding.number n
  | boolean b => Encoding.count 1 ++ Encoding.flag b
  | text s => Encoding.count 2 ++ Encoding.text s
  | absent => Encoding.count 3

def Allowed.encode : Allowed → Bytes
  | list items => Encoding.list Scalar.encode items
  | text s => Encoding.text s

def encode (p : Parameter) : Bytes :=
  Encoding.text p.name
    ++ Encoding.count p.kind.index
    ++ Encoding.option Allowed.encode p.allowed
    ++ Encoding.option Encoding.text p.units
    ++ Encoding.option Encoding.text p.description
    ++ Encoding.flag p.derived
    ++ p.value.encode
    ++ Encoding.flag p.consumed
    ++ Encoding.flag p.supplied

end Parameter

/-- Each value after its name. -/
def Dictionary.encode {α : Type} (encode : α → Bytes) (d : Dictionary α) : Bytes :=
  Encoding.list (fun e => Encoding.text e.1 ++ encode e.2) d.entries

def Parameter.Table.encode (t : Parameter.Table) : Bytes := Dictionary.encode Parameter.encode t

namespace Resolved

def encode {α : Type} (encode : α → Bytes) (r : Resolved α) : Bytes :=
  encode r.value ++ Encoding.option Encoding.text r.key

def encodeNumber (r : Resolved UInt64) : Bytes := r.encode Encoding.number

def encodeFlag (r : Resolved Bool) : Bytes := r.encode Encoding.flag

end Resolved

def Signal.encode (s : Signal) : Bytes := Encoding.text s.name ++ Encoding.number32 s.width

def Clock.encode (c : Clock) : Bytes := Encoding.text c.name ++ Encoding.number c.rate.hz

def Edges.index : Edges → Nat
  | deassert => 0
  | both => 1
  | none => 2

def Reset.encode (r : Reset) : Bytes :=
  Encoding.text r.name
    ++ Encoding.text r.clock
    ++ Encoding.option (fun e => Encoding.count e.index) r.edges

namespace Endpoint

def Direction.index : Direction → Nat
  | sink => 0
  | source => 1

def Mode.index : Mode → Nat
  | standard => 0
  | noReady => 1
  | noValid => 2
  | noBackpressure => 3
  | noFeed => 4

def Handshake.encode (h : Handshake) : Bytes :=
  Encoding.option (fun m => Encoding.count m.index) h.mode
    ++ Encoding.option Encoding.text h.key
    ++ Encoding.option Encoding.text h.valid
    ++ Encoding.option Encoding.text h.ready
    ++ Encoding.flag h.validTerminated
    ++ Encoding.flag h.readyTerminated

def Packets.encode (p : Packets) : Bytes :=
  p.usePackets.encodeFlag
    ++ Encoding.option Resolved.encodeFlag p.useEmpty
    ++ Encoding.option Encoding.text p.startOfPacket
    ++ Encoding.option Encoding.text p.endOfPacket
    ++ Encoding.option Signal.encode p.empty

def Channel.encode (c : Channel) : Bytes :=
  c.useChannel.encodeFlag
    ++ Encoding.option Resolved.encodeNumber c.maxChannel
    ++ Encoding.option Signal.encode c.signal

def ErrorSignal.encode (e : ErrorSignal) : Bytes :=
  Encoding.text e.name ++ e.width.encodeNumber ++ Encoding.list Encoding.text e.descriptors

def encode (e : Endpoint) : Bytes :=
  Encoding.text e.name
    ++ Encoding.count e.direction.index
    ++ Encoding.text e.clock
    ++ Encoding.text e.reset
    ++ Encoding.text e.data
    ++ e.dataWidth.encodeNumber
    ++ e.symbolWidth.encodeNumber
    ++ Encoding.number e.symbolsPerBeat
    ++ Encoding.number32 readyLatency
    ++ e.handshake.encode
    ++ Encoding.option Packets.encode e.packets
    ++ Encoding.option Channel.encode e.channel
    ++ Encoding.option ErrorSignal.encode e.error

end Endpoint

namespace MemoryMapped

def Role.index : Role → Nat
  | slave => 0
  | master => 1

def Address.encode (a : Address) : Bytes := Encoding.text a.name ++ a.width.encodeNumber

def Burst.encode (b : Burst) : Bytes :=
  Encoding.text b.name
    ++ b.maxCount.encodeNumber
    ++ b.width.encodeNumber
    ++ b.onBoundariesOnly.encodeFlag
    ++ b.lineWrap.encodeFlag

def WriteSide.encode (w : WriteSide) : Bytes :=
  Encoding.text w.data
    ++ Encoding.text w.strobe
    ++ w.symbolWidth.encodeNumber
    ++ Encoding.option Signal.encode w.byteEnable
    ++ w.waitTime.encodeNumber
    ++ w.holdTime.encodeNumber

def ReadSide.encode (r : ReadSide) : Bytes :=
  Encoding.text r.strobe
    ++ Encoding.text r.data
    ++ r.maxPending.encodeNumber
    ++ r.waitTime.encodeNumber
    ++ r.latency.encodeNumber

def encode (m : MemoryMapped) : Bytes :=
  Encoding.text m.name
    ++ Encoding.count m.role.index
    ++ Encoding.text m.clock
    ++ Encoding.text m.reset
    ++ Encoding.option Address.encode m.address
    ++ Encoding.option Burst.encode m.burst
    ++ m.dataWidth.encodeNumber
    ++ Encoding.option WriteSide.encode m.write
    ++ Encoding.option ReadSide.encode m.read
    ++ Encoding.option Encoding.text m.waitRequest
    ++ Encoding.option Encoding.text m.readDataValid
    ++ m.setupTime.encodeNumber
    ++ Encoding.option Resolved.encodeFlag m.bridgesToMaster

end MemoryMapped

namespace Conduit

def Direction.index : Direction → Nat
  | input => 0
  | output => 1
  | bidirectional => 2

def ConduitSignal.encode (s : ConduitSignal) : Bytes :=
  Encoding.text s.name ++ Encoding.count s.direction.index ++ s.width.encodeNumber

def encode (c : Conduit) : Bytes :=
  Encoding.text c.name
    ++ Encoding.option Encoding.text c.clock
    ++ Encoding.option Encoding.text c.reset
    ++ Encoding.list ConduitSignal.encode c.signals

end Conduit

def Point.Record.encode : Point.Record → Bytes
  | clock r => Encoding.count 0 ++ r.encode
  | reset r => Encoding.count 1 ++ r.encode
  | endpoint r => Encoding.count 2 ++ r.encode
  | memoryMapped r => Encoding.count 3 ++ r.encode
  | conduit r => Encoding.count 4 ++ r.encode

def Registry.encode (r : Registry) : Bytes := Dictionary.encode (fun p => p.record.encode) r

end Interconnect
