import Interconnect.Width
import Interconnect.Resolved

/-! # Streaming endpoints

A sink or source carries beats of one or more symbols. Its signals are named after a
base name: `PayLoad`, `Valid`, `Ready`, `SoP`, `EoP`, `Empty`, `Channel` and `Error`.
Resolution settles, in this order, the widths, the handshake, the packets, the
channel and the error signal, and stops at the first fault.
-/

namespace Interconnect

open Parameter (Environment)

namespace Endpoint

/-- The payload: its base name, its width and the width of a symbol, which is the
whole payload by default, and a handshake mode or the name of a text parameter that
holds one. -/
structure DataDeclaration where
  name : String
  width : Scalar
  symbolWidth : Option Scalar := none
  handshake : Option String := none
  deriving DecidableEq, Repr, Inhabited

structure PacketDeclaration where
  usePackets : Scalar
  useEmpty : Option Scalar := none
  deriving DecidableEq, Repr, Inhabited

structure ChannelDeclaration where
  useChannel : Scalar
  maxChannel : Option Scalar := none
  deriving DecidableEq, Repr, Inhabited

structure ErrorDeclaration where
  width : Scalar
  descriptors : List String := []
  deriving DecidableEq, Repr, Inhabited

structure Declaration where
  name : String
  clock : String
  reset : String
  data : DataDeclaration
  packets : Option PacketDeclaration := none
  channel : Option ChannelDeclaration := none
  error : Option ErrorDeclaration := none
  deriving DecidableEq, Repr, Inhabited

/-- Whether data flows into the component or out of it. -/
inductive Direction where
  | sink
  | source
  deriving DecidableEq, Repr, Inhabited

def Direction.render : Direction → String
  | sink => "Sink"
  | source => "Source"

instance : ToString Direction := ⟨Direction.render⟩

/-- The handshake disciplines: both signals, one of them, or both with one tied off. -/
inductive Mode where
  | standard
  | noReady
  | noValid
  | noBackpressure
  | noFeed
  deriving DecidableEq, Repr, Inhabited

namespace Mode

def render : Mode → String
  | standard => "Standard"
  | noReady => "NO_READY"
  | noValid => "NO_VALID"
  | noBackpressure => "NO_BACKPRESSURE"
  | noFeed => "NO_FEED"

instance : ToString Mode := ⟨render⟩

/-- The mode with the given name, in any case. -/
def ofName? (name : String) : Option Mode :=
  [standard, noReady, noValid, noBackpressure, noFeed].find? fun m =>
    Text.upper m.render == Text.upper name

end Mode

/-- The handshake in force. Without a mode it is pending: its parameter still waits
for the host. -/
structure Handshake where
  mode : Option Mode
  key : Option String
  valid : Option String
  ready : Option String
  validTerminated : Bool
  readyTerminated : Bool
  deriving DecidableEq, Repr, Inhabited

namespace Handshake

/-- The signals of a mode. A pending handshake keeps both. -/
def ofMode (base : String) (mode : Option Mode) (key : Option String) : Handshake where
  mode := mode
  key := key
  valid := if mode = some .noValid then none else some (base ++ "Valid")
  ready := if mode = some .noReady then none else some (base ++ "Ready")
  validTerminated := mode = some .noFeed
  readyTerminated := mode = some .noBackpressure

/-- A mode name stands for itself. Any other name is that of a parameter, which must
hold a mode name, unless it is derived and the host has not supplied it yet. -/
def resolve (env : Environment) (point base : String) :
    Option String → Except Point.Error Handshake
  | none => .ok (ofMode base (some .standard) none)
  | some name =>
    match Mode.ofName? name with
    | some mode => .ok (ofMode base (some mode) none)
    | none =>
      match env name with
      | none => .error (.invalidHandshake point name)
      | some r =>
        match r.value.text?.bind Mode.ofName? with
        | some mode => .ok (ofMode base (some mode) (some name))
        | none =>
          if r.derived && !r.supplied then .ok (ofMode base none (some name))
          else .error (.invalidHandshake point s!"{name} = {r.value}")

end Handshake

/-- Packet framing. The empty count is there when it is asked for and a beat has more
than one symbol. -/
structure Packets where
  usePackets : Resolved Bool
  useEmpty : Option (Resolved Bool)
  startOfPacket : Option String
  endOfPacket : Option String
  empty : Option Signal
  deriving DecidableEq, Repr, Inhabited

namespace Packets

def ofFlags (base : String) (symbols : UInt64) (usePackets : Resolved Bool)
    (useEmpty : Option (Resolved Bool)) : Packets where
  usePackets := usePackets
  useEmpty := useEmpty
  startOfPacket := if usePackets.value then some (base ++ "SoP") else none
  endOfPacket := if usePackets.value then some (base ++ "EoP") else none
  empty :=
    if usePackets.value && useEmpty.any (·.value) && 1 < symbols then
      some ⟨base ++ "Empty", Width.ofCount symbols⟩
    else none

def flag (env : Environment) (point label field : String) (raw : Scalar) :
    Except Point.Error (Resolved Bool) :=
  Resolved.orElse (.invalidPackets point s!"{label} '{raw}' is not a flag")
    (Resolved.flag? env point field raw)

def resolve (env : Environment) (point base : String) (symbols : UInt64)
    (d : PacketDeclaration) : Except Point.Error Packets := do
  let usePackets ← flag env point "use_packets" "use packets" d.usePackets
  match d.useEmpty with
  | none => .ok (ofFlags base symbols usePackets none)
  | some raw =>
    let useEmpty ← flag env point "use_empty" "use empty" raw
    .ok (ofFlags base symbols usePackets (some useEmpty))

end Packets

/-- Channel tagging. The signal is there when the channel is used, and has at least
one bit. -/
structure Channel where
  useChannel : Resolved Bool
  maxChannel : Option (Resolved UInt64)
  signal : Option Signal
  deriving DecidableEq, Repr, Inhabited

namespace Channel

/-- The bits of a channel number up to `max`. -/
def width (max : UInt64) : UInt32 := if 1 < max then Width.ofValue max else 1

def ofLimit (point base : String) (useChannel : Resolved Bool)
    (maxChannel : Option (Resolved UInt64)) : Except Point.Error Channel :=
  if useChannel.value then
    match maxChannel with
    | some max => .ok ⟨useChannel, maxChannel, some ⟨base ++ "Channel", width max.value⟩⟩
    | none =>
      .error (.invalidChannel point "max_channel is required when the channel is used")
  else .ok ⟨useChannel, maxChannel, none⟩

def resolve (env : Environment) (point base : String) (d : ChannelDeclaration) :
    Except Point.Error Channel := do
  let useChannel ←
    Resolved.orElse (.invalidChannel point s!"use_channel '{d.useChannel}' is not a flag")
      (Resolved.flag? env point "use channel" d.useChannel)
  match d.maxChannel with
  | none => ofLimit point base useChannel none
  | some raw =>
    let maxChannel ←
      Resolved.orElse (.invalidChannel point s!"max_channel '{raw}' is not a number")
        (Resolved.natural? env point "max channel" raw)
    ofLimit point base useChannel (some maxChannel)

end Channel

/-- Error tagging, with the meaning of each bit. -/
structure ErrorSignal where
  name : String
  width : Resolved UInt64
  descriptors : List String
  deriving DecidableEq, Repr, Inhabited

def ErrorSignal.resolve (env : Environment) (point base : String) (d : ErrorDeclaration) :
    Except Point.Error ErrorSignal := do
  let width ← Resolved.number env point "error width" d.width
  .ok ⟨base ++ "Error", width, d.descriptors⟩

/-- Cycles between ready and accepted data. -/
def readyLatency : UInt32 := 0

/-- Resolves a part of a declaration that may be missing. -/
def optionally {δ ρ : Type} (resolve : δ → Except Point.Error ρ) :
    Option δ → Except Point.Error (Option ρ)
  | some d => (resolve d).map some
  | none => .ok none

end Endpoint

/-- A resolved streaming endpoint. -/
structure Endpoint where
  name : String
  direction : Endpoint.Direction
  clock : String
  reset : String
  data : String
  dataWidth : Resolved UInt64
  symbolWidth : Resolved UInt64
  symbolsPerBeat : UInt64
  handshake : Endpoint.Handshake
  packets : Option Endpoint.Packets
  channel : Option Endpoint.Channel
  error : Option Endpoint.ErrorSignal
  deriving DecidableEq, Repr, Inhabited

namespace Endpoint

/-- The symbol width, which is that of the data unless it is declared. -/
def resolveSymbolWidth (env : Environment) (point : String) (dataWidth : Resolved UInt64) :
    Option Scalar → Except Point.Error (Resolved UInt64)
  | some raw => do
    let width ← Resolved.number env point "symbol width" raw
    Resolved.positive point "symbol width" width
  | none => .ok dataWidth

def resolve (env : Environment) (direction : Direction) (d : Declaration) :
    Except Point.Error Endpoint := do
  let base := d.data.name
  let dataWidth ← Resolved.number env d.name "data width" d.data.width
  let dataWidth ← Resolved.positive d.name "data width" dataWidth
  let symbolWidth ← resolveSymbolWidth env d.name dataWidth d.data.symbolWidth
  let symbols ← symbolCount d.name dataWidth.value symbolWidth.value
  let handshake ← Handshake.resolve env d.name base d.data.handshake
  let packets ← optionally (Packets.resolve env d.name base symbols) d.packets
  let channel ← optionally (Channel.resolve env d.name base) d.channel
  let error ← optionally (ErrorSignal.resolve env d.name base) d.error
  .ok
    { name := d.name, direction, clock := d.clock, reset := d.reset, data := base ++ "PayLoad",
      dataWidth, symbolWidth, symbolsPerBeat := symbols, handshake, packets, channel, error }

/-- The width of the empty count, when there is one. -/
def emptyWidth? (e : Endpoint) : Option UInt32 :=
  e.packets.bind fun p => p.empty.map (·.width)

/-- The width of the channel signal, when there is one. -/
def channelWidth? (e : Endpoint) : Option UInt32 :=
  e.channel.bind fun c => c.signal.map (·.width)

/-- The fields that were read from parameters, each with its parameter. A symbol width
taken over from the data is no field of its own. -/
def symbolicFields (d : Declaration) (e : Endpoint) : List (String × String) :=
  e.dataWidth.symbolic "data width"
    ++ (if d.data.symbolWidth.isSome then e.symbolWidth.symbolic "symbol width" else [])
    ++ (e.handshake.key.map fun key => ("handshake", key)).toList
    ++ e.packets.toList.flatMap (fun p =>
        p.usePackets.symbolic "use packets"
          ++ p.useEmpty.toList.flatMap (·.symbolic "use empty"))
    ++ e.channel.toList.flatMap (fun c =>
        c.useChannel.symbolic "use channel"
          ++ c.maxChannel.toList.flatMap (·.symbolic "max channel"))
    ++ e.error.toList.flatMap (·.width.symbolic "error width")

def Handshake.line (h : Handshake) : String :=
  let mode := match h.mode with
    | some m => m.render
    | none => "pending"
  let key := match h.key with
    | some k => s!" ({k})"
    | none => ""
  let terminated (b : Bool) : String := if b then " (terminated)" else ""
  "Handshake: " ++ mode ++ key
    ++ ", valid: " ++ nameOrNone h.valid ++ terminated h.validTerminated
    ++ ", ready: " ++ nameOrNone h.ready ++ terminated h.readyTerminated

def Packets.outline (p : Packets) : List Outline :=
  let frame := s!"Packets: {p.usePackets}, start: {nameOrNone p.startOfPacket}, "
    ++ s!"end: {nameOrNone p.endOfPacket}"
  .line frame ::
    match p.useEmpty with
    | some useEmpty =>
      [.nested [.line s!"Empty: {useEmpty}, signal: {nameOrNone (p.empty.map Signal.render)}"]]
    | none => []

def Channel.line (c : Channel) : String :=
  let max := nameOrNone (c.maxChannel.map Resolved.render)
  let signal := nameOrNone (c.signal.map Signal.render)
  s!"Channel: {c.useChannel}, max channel: {max}, signal: {signal}"

def ErrorSignal.outline (e : ErrorSignal) : List Outline :=
  .line s!"Error: {e.name} width: {e.width}" ::
    if e.descriptors.isEmpty then []
    else [.nested [.line ("descriptors: " ++ " ".intercalate e.descriptors)]]

def outline (e : Endpoint) : List Outline :=
  [.line s!"Connection Point {e.direction}: {e.name}",
   .nested (
    [.line s!"associated clock and reset: {e.clock}, {e.reset}",
     .line (s!"Data: '{e.data}' width: {e.dataWidth}, symbol width: {e.symbolWidth}, "
       ++ s!"symbols per beat: {e.symbolsPerBeat}, ready latency: {readyLatency}"),
     .line e.handshake.line]
    ++ e.packets.toList.flatMap Packets.outline
    ++ e.channel.toList.map (fun c => .line c.line)
    ++ e.error.toList.flatMap ErrorSignal.outline)]

end Endpoint

end Interconnect
