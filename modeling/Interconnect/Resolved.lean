import Interconnect.Parameter.Table
import Interconnect.Point.Error

/-! # Resolved fields

A written field is first read as a literal, as the name of a parameter, or as
neither. A literal resolves to itself. A name resolves to the current value of its
parameter and keeps the name, so that the field can be resolved again.
-/

namespace Interconnect

open Parameter (Value Environment)

/-- What a written field refers to. -/
inductive Reference (α : Type) where
  | literal (value : α)
  | symbol (name : String)
  | malformed
  deriving DecidableEq, Repr

namespace Reference

/-- A field that counts something: a number, a digit string of at most 64 bits, or a
name. -/
def ofNumber : Scalar → Reference UInt64
  | .number n => .literal n
  | .text s =>
    if Text.isDigits s then
      match Text.number? s with
      | some n => .literal n
      | none => .malformed
    else if Text.isSymbol s then .symbol s
    else .malformed
  | .flag _ => .malformed

/-- A field that switches something: a flag, zero or one, also as a text, or a name. -/
def ofFlag : Scalar → Reference Bool
  | .flag b => .literal b
  | .number n => if n = 0 then .literal false else if n = 1 then .literal true else .malformed
  | .text s =>
    if s = "0" then .literal false
    else if s = "1" then .literal true
    else if Text.isSymbol s then .symbol s
    else .malformed

end Reference

/-- A value usable now, and the parameter that it was read from. -/
structure Resolved (α : Type) where
  value : α
  key : Option String := none
  deriving DecidableEq, Repr, Inhabited

namespace Resolved

variable {α : Type}

def isSymbolic (r : Resolved α) : Bool := r.key.isSome

/-- The value, followed by its parameter in parentheses. -/
def render [ToString α] (r : Resolved α) : String :=
  match r.key with
  | some key => s!"{r.value} ({key})"
  | none => toString r.value

instance [ToString α] : ToString (Resolved α) := ⟨render⟩

/-- Resolves a reference, reading the value of a parameter with `read`. There is no
result for a malformed field or a parameter of another kind. -/
def ofReference? (env : Environment) (read : Value → Option α) (point field : String) :
    Reference α → Except Point.Error (Option (Resolved α))
  | .literal v => .ok (some { value := v })
  | .malformed => .ok none
  | .symbol name =>
    match env name with
    | some r => .ok ((read r.value).map fun v => { value := v, key := some name })
    | none => .error (.unresolvedParameter point field name)

def natural? (env : Environment) (point field : String) (raw : Scalar) :
    Except Point.Error (Option (Resolved UInt64)) :=
  ofReference? env Value.natural? point field (.ofNumber raw)

def flag? (env : Environment) (point field : String) (raw : Scalar) :
    Except Point.Error (Option (Resolved Bool)) :=
  ofReference? env Value.boolean? point field (.ofFlag raw)

/-- Turns a missing result into the given error. -/
def orElse (error : Point.Error) :
    Except Point.Error (Option (Resolved α)) → Except Point.Error (Resolved α)
  | .ok (some r) => .ok r
  | .ok none => .error error
  | .error e => .error e

/-- A counting field that is there. -/
def number (env : Environment) (point field : String) (raw : Scalar) :
    Except Point.Error (Resolved UInt64) :=
  orElse (.invalidWidth point field raw.render) (natural? env point field raw)

/-- A counting field, with a default when it is not there. -/
def natural (env : Environment) (point field : String) (raw : Option Scalar)
    (default : UInt64) : Except Point.Error (Resolved UInt64) :=
  match raw with
  | some raw => number env point field raw
  | none => .ok { value := default }

/-- A switching field, with a default when it is not there. -/
def flag (env : Environment) (point field : String) (raw : Option Scalar)
    (default : Bool) : Except Point.Error (Resolved Bool) :=
  match raw with
  | some raw => orElse (.invalidWidth point field raw.render) (flag? env point field raw)
  | none => .ok { value := default }

/-- Refuses the width zero. -/
def positive (point field : String) (width : Resolved UInt64) :
    Except Point.Error (Resolved UInt64) :=
  if width.value = 0 then .error (.invalidWidth point field width.render) else .ok width

/-- The entry of a field in a list of symbolic fields: none for a literal. -/
def symbolic (field : String) (r : Resolved α) : List (String × String) :=
  match r.key with
  | some key => [(field, key)]
  | none => []

end Resolved

/-- The number of symbols in a word; the symbol width must divide the width. -/
def symbolCount (point : String) (width symbolWidth : UInt64) : Except Point.Error UInt64 :=
  if width % symbolWidth = 0 then .ok (width / symbolWidth)
  else .error (.nonIntegralSymbolCount point width symbolWidth)

/-- A signal with its width in bits. -/
structure Signal where
  name : String
  width : UInt32
  deriving DecidableEq, Repr, Inhabited

def Signal.render (s : Signal) : String := s!"{s.name} [{s.width} bits]"

instance : ToString Signal := ⟨Signal.render⟩

/-- A name in a dump, `none` when there is none. -/
def nameOrNone : Option String → String
  | some name => name
  | none => "none"

end Interconnect
