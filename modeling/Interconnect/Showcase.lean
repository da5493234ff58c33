import Interconnect.Interface

/-! # A component with every kind of connection point

A description that uses every kind of connection point and most optional fields: literal
and symbolic widths, derived parameters, headings, and handshakes of every discipline.
-/

namespace Interconnect.Showcase

open Point (Declaration)

def component : Component where
  name := "testQsys"
  version := "1.0"
  description := "streaming, memory-mapped and conduit interfaces"

def natural (name : String) (n : UInt64) : Parameter.Declaration :=
  { name, kind := "Natural", value := some (.number n) }

def flag (name : String) (b : Bool) : Parameter.Declaration :=
  { name, kind := "Boolean", value := some (.flag b) }

def text (name : String) (s : String) : Parameter.Declaration :=
  { name, kind := "String", value := some (.text s) }

def streamParameters : List Parameter.Declaration :=
  [ .heading "Streaming",
    { natural "WIDTH_D" 12 with
      allowed := some (.list [.number 8, .number 12, .number 16]), units := some "bits" },
    flag "USE_PACKETS_D" true,
    { natural "WIDTH_D3" 24 with allowed := some (.text "12 : 36") },
    natural "WIDTH_SYMBOL_D3" 12,
    { flag "USE_PACKETS_D3" true with derived := true },
    flag "USE_EMPTY_D3" true,
    flag "D4_USE_CHANNEL" true,
    natural "D4_MAX_CHANNEL" 3,
    natural "WIDTH_DATA" 12,
    natural "SYMBOL_WIDTH_DATA" 3,
    flag "USE_PACKETS_DATA" true,
    flag "USE_EMPTY_DATA" true,
    flag "DATA_USE_CHANNEL" true,
    natural "DATA_MAX_CHANNEL" 3,
    natural "DATA_WIDTH_ERROR" 2,
    natural "WIDTH_Q" 32,
    natural "Q1_WIDTH_ERROR" 2,
    { text "HANDSHAKE_D9" "NO_BACKPRESSURE" with
      description := some "handshake discipline of In9" } ]

def memoryParameters : List Parameter.Declaration :=
  [ .heading "Memory Mapped",
    natural "WIDTH_MM_D" 32,
    natural "WIDTH_AS" 4,
    natural "MAXIMUM_BURSTCOUNT" 4,
    natural "WIDTH_BURSTCOUNT" 4,
    flag "BURST_ON_BURST_BOUNDARIES_ONLY" true,
    flag "LINE_WRAP_BURSTS" true,
    natural "WRITE_WAIT_TIME" 1,
    natural "MAXIMUM_PENDING_READ_TRANSACTIONS" 1,
    natural "HOLD_TIME" 1,
    natural "READ_WAIT_TIME" 1,
    natural "READ_LATENCY" 1,
    flag "BRIDGES_TO_MASTER" false,
    natural "SETUP_TIME" 0,
    natural "WIDTH_AM" 7 ]

def conduitParameters : List Parameter.Declaration :=
  [ .heading "Conduits",
    { natural "WIDTH_SEQUENCE_ID" 8 with
      derived := true, description := some "supplied by the instantiating system" } ]

def sinkPoints : List Declaration :=
  [ .clock { name := "Clk" },
    .reset { name := "Reset", clock := "Clk" },
    .sink
      { name := "In0", clock := "Clk", reset := "Reset"
        data := { name := "D0", width := .text "WIDTH_D", symbolWidth := some (.text "WIDTH_D") } },
    .sink
      { name := "In1", clock := "Clk", reset := "Reset"
        data := { name := "D1", width := .number 13 }
        packets := some { usePackets := .flag true } },
    .sink
      { name := "In2", clock := "Clk", reset := "Reset"
        data := { name := "D2", width := .text "WIDTH_D", symbolWidth := some (.number 3) }
        packets := some { usePackets := .flag true, useEmpty := some (.flag true) } },
    .sink
      { name := "In3", clock := "Clk", reset := "Reset"
        data :=
          { name := "D3", width := .text "WIDTH_D3", symbolWidth := some (.text "WIDTH_SYMBOL_D3") }
        packets := some
          { usePackets := .text "USE_PACKETS_D3", useEmpty := some (.text "USE_EMPTY_D3") } },
    .sink
      { name := "In4", clock := "Clk", reset := "Reset"
        data := { name := "D4", width := .text "WIDTH_D" }
        channel := some
          { useChannel := .text "D4_USE_CHANNEL", maxChannel := some (.text "D4_MAX_CHANNEL") } },
    .sink
      { name := "In5", clock := "Clk", reset := "Reset"
        data :=
          { name := "Data", width := .text "WIDTH_DATA"
            symbolWidth := some (.text "SYMBOL_WIDTH_DATA") }
        packets := some
          { usePackets := .text "USE_PACKETS_DATA", useEmpty := some (.text "USE_EMPTY_DATA") }
        channel := some
          { useChannel := .text "DATA_USE_CHANNEL", maxChannel := some (.text "DATA_MAX_CHANNEL") }
        error := some { width := .text "DATA_WIDTH_ERROR" } },
    .sink
      { name := "In6", clock := "Clk", reset := "Reset"
        data :=
          { name := "D6", width := .text "WIDTH_D", symbolWidth := some (.text "WIDTH_D")
            handshake := some "NO_READY" } },
    .sink
      { name := "In7", clock := "Clk", reset := "Reset"
        data :=
          { name := "D7", width := .text "WIDTH_D", symbolWidth := some (.text "WIDTH_D")
            handshake := some "NO_VALID" } },
    .sink
      { name := "In8", clock := "Clk", reset := "Reset"
        data := { name := "D8", width := .text "16", symbolWidth := some (.text "8") }
        packets := some { usePackets := .flag true, useEmpty := some (.flag true) } },
    .sink
      { name := "In9", clock := "Clk", reset := "Reset"
        data := { name := "D9", width := .number 8, handshake := some "HANDSHAKE_D9" } } ]

def sourcePoints : List Declaration :=
  [ .clockReset
      { clock := "ClkOut", rate := some (.text "100MHz")
        reset := "ResetOut", edges := some "NONE" },
    .source
      { name := "Out0", clock := "ClkOut", reset := "ResetOut"
        data := { name := "Q0", width := .text "WIDTH_Q" } },
    .source
      { name := "Out1", clock := "ClkOut", reset := "ResetOut"
        data := { name := "Q1", width := .text "WIDTH_Q" }
        packets := some { usePackets := .flag true }
        error := some { width := .text "Q1_WIDTH_ERROR" } },
    .source
      { name := "Out2", clock := "ClkOut", reset := "ResetOut"
        data := { name := "Q2", width := .text "24", symbolWidth := some (.number 12) }
        packets := some { usePackets := .flag true, useEmpty := some (.flag true) }
        channel := some { useChannel := .flag true, maxChannel := some (.number 3) }
        error := some { width := .number 2, descriptors := ["one", "two"] } } ]

def memoryPoints : List Declaration :=
  [ .clockReset { clock := "ClkMMS", reset := "ResetMMS" },
    .slave
      { name := "csr", clock := "ClkMMS", reset := "ResetMMS"
        address := some { name := "AS", width := .text "WIDTH_AS" }
        burst := some
          { name := "BurstCountS", maxCount := .text "MAXIMUM_BURSTCOUNT"
            width := some (.text "WIDTH_BURSTCOUNT")
            onBoundariesOnly := some (.text "BURST_ON_BURST_BOUNDARIES_ONLY")
            lineWrap := some (.text "LINE_WRAP_BURSTS") }
        dataWidth := some (.text "WIDTH_MM_D")
        write := some
          { data := "WDS", strobe := "WrS", symbolWidth := some (.text "WIDTH_MM_D")
            byteEnable := some "ByteEnableS", waitTime := some (.text "WRITE_WAIT_TIME")
            holdTime := some (.text "HOLD_TIME") }
        read := some
          { strobe := "RdS", data := "RQS"
            maxPending := some (.text "MAXIMUM_PENDING_READ_TRANSACTIONS")
            waitTime := some (.text "READ_WAIT_TIME"), latency := some (.text "READ_LATENCY") }
        waitRequest := some "WaitRequestS", readDataValid := some "ReadDataValidS"
        setupTime := some (.text "SETUP_TIME")
        bridgesToMaster := some (.text "BRIDGES_TO_MASTER") },
    .slave
      { name := "csr2", clock := "ClkMMS", reset := "ResetMMS"
        address := some { name := "AS2", width := .text "4" }
        dataWidth := some (.text "32")
        write := some { data := "WDS2", strobe := "WrS2" }
        read := some { strobe := "RdS2", data := "RQS2" } },
    .slave
      { name := "csr3", clock := "ClkMMS", reset := "ResetMMS"
        address := some { name := "AS3", width := .text "4" }
        dataWidth := some (.text "32")
        write := some { data := "WDS3", strobe := "WrS3" } },
    .slave
      { name := "csr4", clock := "ClkMMS", reset := "ResetMMS"
        address := some { name := "AS4", width := .text "5" }
        dataWidth := some (.text "32")
        read := some { strobe := "RdS4", data := "RQS4" } },
    .clockReset { clock := "ClkMMM", reset := "ResetMMM" },
    .master
      { name := "mmm", clock := "ClkMMM", reset := "ResetMMM"
        address := some { name := "AM", width := .text "WIDTH_AM" }
        burst := some
          { name := "BurstCountM", maxCount := .text "MAXIMUM_BURSTCOUNT"
            onBoundariesOnly := some (.text "BURST_ON_BURST_BOUNDARIES_ONLY")
            lineWrap := some (.text "LINE_WRAP_BURSTS") }
        dataWidth := some (.text "WIDTH_MM_D")
        write := some
          { data := "WDM", strobe := "WrM", symbolWidth := some (.number 8)
            byteEnable := some "ByteEnableM", waitTime := some (.text "WRITE_WAIT_TIME")
            holdTime := some (.text "HOLD_TIME") }
        read := some
          { strobe := "RdM", data := "RQM"
            maxPending := some (.text "MAXIMUM_PENDING_READ_TRANSACTIONS")
            waitTime := some (.text "READ_WAIT_TIME"), latency := some (.text "READ_LATENCY") }
        waitRequest := some "WaitRequestM", readDataValid := some "ReadDataValidM"
        setupTime := some (.text "SETUP_TIME") } ]

def conduitPoints : List Declaration :=
  [ .conduit
      { name := "Sequence", clock := some "ClkOut", reset := some "ResetOut"
        signals :=
          [ { name := "SequenceID", direction := "Input", width := .text "WIDTH_SEQUENCE_ID" },
            { name := "Time", direction := "Input", width := .text "16" } ] } ]

/-- The whole description; it has no overrides of its own. -/
def description : Description where
  component := component
  parameters := streamParameters ++ memoryParameters ++ conduitParameters
  points := sinkPoints ++ sourcePoints ++ memoryPoints ++ conduitPoints
  overrides := []

/-- The component resolved with the given host overrides. -/
def interface (overrides : Parameter.Overrides) : Except Description.Error Interface :=
  Interface.resolve description overrides

end Interconnect.Showcase
