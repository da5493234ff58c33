import Interconnect.Dictionary
import Interconnect.Outcome
import Interconnect.Parameter.Basic

/-! # Parameter tables

The parameters of an interface by name, in the order of their declarations. After
that order is fixed, the host may only assign values and mark parameters consumed.
-/

namespace Interconnect.Parameter

abbrev Table := Dictionary Parameter

/-- Values written for parameters, in the order in which they are assigned. -/
abbrev Overrides := List (String × Scalar)

namespace Table

/-- Declares one more parameter under a new name. -/
def add (t : Table) (d : Declaration) : Outcome Table Error Unit :=
  if t.contains d.name then .fail t (.duplicateName d.name)
  else
    match ofDeclaration d with
    | .ok p => .succeed (t.insert d.name p) ()
    | .error e => .fail t e

def addHeading (t : Table) (name : String) : Outcome Table Error Unit :=
  t.add (.heading name)

/-- The table of a list of declarations; the first failure is reported. -/
def ofDeclarations (ds : List Declaration) : Except Error Table :=
  (Outcome.forEach add {} ds).toExcept

/-- The current value of a name. -/
def lookup (t : Table) (name : String) : Option Value := (t.get? name).map (·.value)

/-- A literal as a value, or the value of the parameter that a text names. -/
def value (t : Table) : Scalar → Option Value
  | .text name => t.lookup name
  | literal => some (.ofScalar literal)

def isDerived (t : Table) (name : String) : Except Error Bool :=
  match t.get? name with
  | some p => .ok p.derived
  | none => .error (.unknownParameter name)

def markConsumed (t : Table) (name : String) : Outcome Table Error Unit :=
  if t.contains name then .succeed (t.modify name consume) ()
  else .fail t (.unknownParameter name)

/-- Assigns a host value to a parameter, converted by its kind. -/
def update (t : Table) (name : String) (raw : Scalar) : Outcome Table Error Unit :=
  match t.get? name with
  | none => .fail t (.unknownParameter name)
  | some p =>
    match p.kind.convert name raw with
    | .ok v => .succeed (t.modify name (·.assign v)) ()
    | .error e => .fail t e

/-- Assigns values in order. A failure keeps the assignments before it. -/
def applyOverrides (t : Table) (overrides : Overrides) : Outcome Table Error Unit :=
  Outcome.forEach (fun t o => t.update o.1 o.2) t overrides

def outline (t : Table) : List Outline :=
  [.line "Parameters", .nested (t.values.flatMap Parameter.outline)]

end Table

/-- What a field that names a parameter can see of it. -/
structure Reading where
  value : Value
  derived : Bool
  supplied : Bool
  deriving DecidableEq, Repr, Inhabited

def reading (p : Parameter) : Reading := ⟨p.value, p.derived, p.supplied⟩

/-- The parameters as fields see them, by name. -/
abbrev Environment := String → Option Reading

def Table.environment (t : Table) : Environment := fun name => (t.get? name).map reading

end Interconnect.Parameter
