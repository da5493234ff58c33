import Interconnect.Parameter.Basic

/-! # Faults of connection points

The causes for which a declaration is refused. Every one names the connection point
at fault.
-/

namespace Interconnect.Point

inductive Error where
  | duplicateName (name : String)
  | unknownKind (tag : String)
  | invalidWidth (point field value : String)
  | unresolvedParameter (point field name : String)
  | invalidPackets (point reason : String)
  | invalidChannel (point reason : String)
  | invalidHandshake (point mode : String)
  | invalidAddress (point reason : String)
  | invalidSignalWidth (point signal value : String)
  | nonIntegralSymbolCount (point : String) (width symbolWidth : UInt64)
  | invalidClockRate (point value : String)
  | invalidEdges (point value : String)
  | invalidDirection (point signal value : String)
  | parameter (error : Parameter.Error)
  deriving DecidableEq, Repr

def Error.message : Error → String
  | duplicateName name => s!"connection point '{name}' already declared"
  | unknownKind tag => s!"unknown connection point kind '{tag}'"
  | invalidWidth point field value => s!"{point}: invalid {field} '{value}'"
  | unresolvedParameter point field name =>
    s!"{point}: {field} refers to unknown parameter '{name}'"
  | invalidPackets point reason => s!"{point}: invalid packet descriptor: {reason}"
  | invalidChannel point reason => s!"{point}: invalid channel descriptor: {reason}"
  | invalidHandshake point mode => s!"{point}: invalid handshake mode '{mode}'"
  | invalidAddress point reason => s!"{point}: invalid address descriptor: {reason}"
  | invalidSignalWidth point signal value =>
    s!"{point}: signal '{signal}' has invalid width '{value}'"
  | nonIntegralSymbolCount point width symbolWidth =>
    s!"{point}: data width {width} is not a multiple of symbol width {symbolWidth}"
  | invalidClockRate point value => s!"{point}: invalid clock rate '{value}'"
  | invalidEdges point value => s!"{point}: invalid synchronous edges '{value}'"
  | invalidDirection point signal value =>
    s!"{point}: signal '{signal}' has invalid direction '{value}'"
  | parameter error => error.message

end Interconnect.Point
