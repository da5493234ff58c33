import Interconnect.Parameter.Basic
import Interconnect.Point.Error

/-! # Faults of descriptions

The causes for which a description is refused while it is read, completed or resolved.
Points and parameters are counted from zero.
-/

namespace Interconnect.Description

inductive Error where
  /-- There is no text to read. -/
  | unreadable
  /-- The text is no document, or not one of the right shape. -/
  | malformed
  | malformedPoint (index : Nat)
  | kindNotText (index : Nat) (type : String)
  | missingField (field : String)
  | parameter (error : Parameter.Error)
  | point (error : Point.Error)
  deriving DecidableEq, Repr

/-- The text of a fault. For a text that cannot be read or parsed there is none. -/
def Error.message? : Error → Option String
  | unreadable => none
  | malformed => none
  | malformedPoint index => some s!"connection_point[{index}]"
  | kindNotText index type =>
    some s!"connection_point[{index}].kind must be a string, found {type}"
  | missingField field => some s!"missing required field: {field}"
  | parameter error => some s!"parameter error: {error.message}"
  | point error => some s!"connection point error: {error.message}"

end Interconnect.Description
