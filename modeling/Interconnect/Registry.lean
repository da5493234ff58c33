import Interconnect.Point.Basic

/-! # Registries of connection points

The connection points of an interface by name, in the order of their declarations. A
registry can be refreshed against the current parameters, and lists the bindings
between symbolic fields and parameters.
-/

namespace Interconnect

open Parameter (Environment Table)

/-- A symbolic field of a point. Of the bindings of a derived parameter only the first
reads the value of the host; `firstUse` marks it. -/
structure Binding where
  point : String
  field : String
  parameter : String
  derived : Bool
  firstUse : Bool
  deriving DecidableEq, Repr, Inhabited

def Binding.render (b : Binding) : String :=
  s!"{b.point}.{b.field} <- {b.parameter}"
    ++ (if b.derived then if b.firstUse then " (derived, first use)" else " (derived)" else "")

instance : ToString Binding := ⟨Binding.render⟩

abbrev Registry := Dictionary Point

namespace Registry

open Point (Declaration Error)

/-- The first name that is taken already, by an entry or by a name before it. -/
def firstTaken (taken : List String) : List String → Option String
  | [] => none
  | name :: names => if name ∈ taken then some name else firstTaken (name :: taken) names

/-- Adds points under their names. -/
def addAll (r : Registry) (points : List Point) : Registry :=
  points.foldl (fun r p => r.insert p.name p) r

/-- Resolves a declaration and registers its points. The names are checked before
anything is resolved, and everything is resolved before a point is registered. -/
def register (r : Registry) (env : Environment) (d : Declaration) : Outcome Registry Error Unit :=
  match firstTaken r.keys d.names with
  | some name => .fail r (.duplicateName name)
  | none =>
    match Point.ofDeclaration env d with
    | .ok points => .succeed (r.addAll points) ()
    | .error e => .fail r e

/-- The registry of a list of declarations; the first failure is reported. -/
def ofDeclarations (env : Environment) (ds : List Declaration) : Except Error Registry :=
  (Outcome.forEach (fun r d => register r env d) {} ds).toExcept

/-- Resolves every point again from its declaration, or none when one of them fails. -/
def refresh (r : Registry) (env : Environment) : Outcome Registry Error Unit :=
  .commit r ((Dictionary.traverse (Point.refresh env) r).map (·, ()))

/-- The symbolic fields of all points: point, field and parameter. -/
def symbolicFields (r : Registry) : List (String × String × String) :=
  r.values.flatMap fun p => p.symbolicFields.map fun (field, key) => (p.name, field, key)

/-- Bindings in order, given the parameters that an earlier binding has used. -/
def bind (t : Table) (used : List String) :
    List (String × String × String) → List Binding
  | [] => []
  | (point, field, key) :: rest =>
    let (derived, consumed) := match t.get? key with
      | some p => (p.derived, p.consumed)
      | none => (false, false)
    let firstUse := derived && !consumed && key ∉ used
    ⟨point, field, key, derived, firstUse⟩ ::
      bind t (if firstUse then key :: used else used) rest

/-- The bindings of all symbolic fields, in order. -/
def bindings (r : Registry) (t : Table) : List Binding := bind t [] r.symbolicFields

/-- The derived parameters that the bindings read for the first time. -/
def firstUses (bs : List Binding) : List String :=
  (bs.filter (·.firstUse)).map (·.parameter)

/-- Refreshes the registry, then lists the bindings and marks the derived parameters
they read first as consumed. -/
def elaborate (r : Registry) (t : Table) : Outcome (Registry × Table) Error (List Binding) :=
  let refreshed := r.refresh t.environment
  match refreshed.answer with
  | .error e => .fail (refreshed.state, t) e
  | .ok () =>
    let bs := bindings refreshed.state t
    let marked := Outcome.forEach Parameter.Table.markConsumed t (firstUses bs)
    match marked.answer with
    | .error e => .fail (refreshed.state, marked.state) (.parameter e)
    | .ok () => .succeed (refreshed.state, marked.state) bs

/-- The width of the empty count of a named endpoint, when it has one. -/
def emptyWidth? (r : Registry) (name : String) : Option UInt32 :=
  (r.get? name).bind fun p => p.record.endpoint?.bind Endpoint.emptyWidth?

/-- The width of the channel signal of a named endpoint, when it has one. -/
def channelWidth? (r : Registry) (name : String) : Option UInt32 :=
  (r.get? name).bind fun p => p.record.endpoint?.bind Endpoint.channelWidth?

def outline (r : Registry) : List Outline :=
  [.line "Connection Points", .nested (r.values.flatMap Point.outline)]

end Registry

end Interconnect
