import Interconnect.Scalar
import Interconnect.Toml.DateTime

/-! # Typed values in TOML

A structure is read from a table by the names of its fields, or from an array by their
positions. Fields that the structure does not have are ignored. How strictly values are
read is a convention, which the parts of a description choose for themselves.
-/

namespace Interconnect.Toml

structure Convention where
  /-- Whether a date-time stands for its canonical text where a text is expected. -/
  dateTimeIsText : Bool
  /-- Whether an array may have more items than the structure has fields. -/
  surplusItems : Bool

/-- Values under the names of fields. -/
abbrev Fields := List (String × Value)

namespace Value

/-- The entries of a table. A date-time counts as a table with the reserved key alone. -/
def entries? : Value → Option Fields
  | table entries => some entries
  | dateTime d => some [(dateTimeKey, text d.render)]
  | _ => none

/-- The fields of a structure whose fields have the given names, in this order. -/
def fields? (c : Convention) (names : List String) : Value → Option Fields
  | table entries => some entries
  | array items =>
    if c.surplusItems || items.length ≤ names.length then some (names.zip items) else none
  | _ => none

def text? (c : Convention) : Value → Option String
  | text s => some s
  | dateTime d => if c.dateTimeIsText then some d.render else none
  | _ => none

def boolean? : Value → Option Bool
  | boolean b => some b
  | _ => none

/-- A flag, a number that fits in 64 bits without a sign, or a text. -/
def scalar? (c : Convention) : Value → Option Scalar
  | boolean b => some (.flag b)
  | integer n => if 0 ≤ n ∧ n < UInt64.size then some (.number (UInt64.ofNat n.toNat)) else none
  | v => (v.text? c).map .text

def list? {α : Type} (read : Value → Option α) : Value → Option (List α)
  | array items => items.mapM read
  | _ => none

end Value

namespace Fields

variable {α : Type}

def required (fs : Fields) (name : String) (read : Value → Option α) : Option α :=
  (fs.lookup name).bind read

/-- A field that may be missing. One that is there must be well formed. -/
def optional (fs : Fields) (name : String) (read : Value → Option α) : Option (Option α) :=
  match fs.lookup name with
  | some v => (read v).map some
  | none => some none

/-- A field with a value that stands for it when it is missing. -/
def orDefault (fs : Fields) (name : String) (default : α) (read : Value → Option α) :
    Option α :=
  match fs.lookup name with
  | some v => read v
  | none => some default

end Fields

end Interconnect.Toml
