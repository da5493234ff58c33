import Interconnect.Text

/-! # Written values

A field of a declaration is written as a flag, a number or a text. Whether a text
is a literal or names a parameter is decided only when the field is resolved.
-/

namespace Interconnect

inductive Scalar where
  | flag (b : Bool)
  | number (n : UInt64)
  | text (s : String)
  deriving DecidableEq, Repr, Inhabited

namespace Scalar

/-- A flag and a number as they are written, a text without quotes. -/
def render : Scalar → String
  | flag b => toString b
  | number n => toString n
  | text s => s

instance : ToString Scalar := ⟨render⟩

def text? : Scalar → Option String
  | text s => some s
  | _ => none

end Scalar

end Interconnect
