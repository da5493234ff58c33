import Interconnect.Scalar
import Interconnect.Outline

/-! # Parameters

A parameter has a kind, which fixes how written values are converted, and a current
value. A derived parameter is supplied by the host of the interface; a heading only
groups the parameters after it and holds no value.
-/

namespace Interconnect

namespace Parameter

inductive Kind where
  | natural
  | boolean
  | text
  | heading
  deriving DecidableEq, Repr, Inhabited

inductive Value where
  | natural (n : UInt64)
  | boolean (b : Bool)
  | text (s : String)
  | absent
  deriving DecidableEq, Repr, Inhabited

namespace Value

def natural? : Value → Option UInt64
  | natural n => some n
  | _ => none

def boolean? : Value → Option Bool
  | boolean b => some b
  | _ => none

def text? : Value → Option String
  | text s => some s
  | _ => none

/-- A literal taken as it is written. -/
def ofScalar : Scalar → Value
  | .flag b => boolean b
  | .number n => natural n
  | .text s => text s

/-- A text stands between quotes, and the value of a heading is a dash. -/
def render : Value → String
  | natural n => toString n
  | boolean b => toString b
  | text s => "\"" ++ s ++ "\""
  | absent => "-"

instance : ToString Value := ⟨render⟩

end Value

namespace Kind

def render : Kind → String
  | natural => "Natural"
  | boolean => "Boolean"
  | text => "String"
  | heading => "Section"

instance : ToString Kind := ⟨render⟩

/-- The kind with the given name, in any case. -/
def ofName? (name : String) : Option Kind :=
  [natural, boolean, text, heading].find? fun k => Text.lower k.render == Text.lower name

/-- A written value as a value of the kind. A number may be written as a digit
string, and a flag as `0`, `1` or a text, of which only `true` stands for true;
blanks around these texts do not count. Any value is a text, and none is a heading. -/
def convert? : Kind → Scalar → Option Value
  | natural, .number n => some (.natural n)
  | natural, .text s =>
    let digits := Text.trim s
    if Text.isDigits digits then (Text.number? digits).map .natural else none
  | natural, .flag _ => none
  | boolean, .flag b => some (.boolean b)
  | boolean, .number n =>
    if n = 0 then some (.boolean false) else if n = 1 then some (.boolean true) else none
  | boolean, .text s => some (.boolean (Text.lower (Text.trim s) == "true"))
  | text, raw => some (.text raw.render)
  | heading, _ => none

end Kind

/-- What a parameter may hold, for display only: values are not checked against it. -/
inductive Allowed where
  | list (items : List Scalar)
  | text (s : String)
  deriving DecidableEq, Repr, Inhabited

/-- A list stands between braces, its items apart by spaces. -/
def Allowed.render : Allowed → String
  | list items => "\x7b" ++ " ".intercalate (items.map Scalar.render) ++ "\x7d"
  | text s => s

instance : ToString Allowed := ⟨Allowed.render⟩

/-- A parameter as a description declares it. -/
structure Declaration where
  name : String
  kind : String
  value : Option Scalar := none
  allowed : Option Allowed := none
  units : Option String := none
  description : Option String := none
  derived : Bool := false
  deriving DecidableEq, Repr, Inhabited

/-- The declaration of a heading. -/
def Declaration.heading (name : String) : Declaration := { name, kind := "Section" }

inductive Error where
  | duplicateName (name : String)
  | unknownKind (name kind : String)
  | unknownParameter (name : String)
  | invalidValue (name : String) (kind : Kind) (value : String)
  deriving DecidableEq, Repr

def Error.message : Error → String
  | duplicateName name => s!"parameter '{name}' already declared"
  | unknownKind name kind => s!"parameter '{name}' has unknown kind '{kind}'"
  | unknownParameter name => s!"unknown parameter '{name}'"
  | invalidValue name kind value => s!"parameter '{name}' cannot hold {kind} value '{value}'"

/-- Converts a value written for the parameter of the given name. -/
def Kind.convert (kind : Kind) (name : String) (raw : Scalar) : Except Error Value :=
  match kind.convert? raw with
  | some value => .ok value
  | none => .error (.invalidValue name kind raw.render)

end Parameter

/-- A declared parameter with its current value. `consumed` is set once an
elaboration has read it, `supplied` once the host has given a value to a derived
parameter. -/
structure Parameter where
  name : String
  kind : Parameter.Kind
  allowed : Option Parameter.Allowed
  units : Option String
  description : Option String
  derived : Bool
  value : Parameter.Value
  consumed : Bool := false
  supplied : Bool := false
  deriving DecidableEq, Repr, Inhabited

namespace Parameter

/-- The parameter after the host has assigned a value. -/
def assign (p : Parameter) (v : Value) : Parameter :=
  { p with value := v, supplied := p.supplied || p.derived }

def consume (p : Parameter) : Parameter := { p with consumed := true }

/-- A declared parameter: the kind must be known and every kind but a heading needs
a value that converts. -/
def ofDeclaration (d : Declaration) : Except Error Parameter :=
  match Kind.ofName? d.kind with
  | none => .error (.unknownKind d.name d.kind)
  | some kind =>
    let holding (value : Value) : Parameter :=
      { name := d.name, kind, allowed := d.allowed, units := d.units,
        description := d.description, derived := d.derived, value }
    match kind, d.value with
    | .heading, _ => .ok (holding .absent)
    | kind, none => .error (.invalidValue d.name kind "")
    | kind, some raw => (kind.convert d.name raw).map holding

/-- A labelled remark on a dumped parameter, when it is there. -/
def remark (label : String) : Option String → String
  | some text => s!", {label}: {text}"
  | none => ""

/-- The line of a parameter in a dump. -/
def line (p : Parameter) : String :=
  match p.kind with
  | .heading => s!"Section: {p.name}"
  | kind =>
    s!"Parameter: {p.name} : {kind} := {p.value}"
      ++ remark "allowed range" (p.allowed.map Allowed.render)
      ++ remark "units" p.units
      ++ remark "description" p.description
      ++ (if p.derived then if p.consumed then ", derived (consumed)" else ", derived" else "")

def outline (p : Parameter) : List Outline := [.line p.line]

end Parameter

end Interconnect
