import Interconnect.Description.Basic
import Interconnect.Fingerprint

/-! # Resolved interfaces

The parameters of a component and its connection points, resolved against them. The
host may assign values to parameters, which resolves every connection point again, and
elaborate the interface, which lists the bindings and consumes derived parameters.
-/

namespace Interconnect

open Parameter (Overrides Table)

def Component.encode (c : Component) : Encoding.Bytes :=
  Encoding.text c.name ++ Encoding.text c.version ++ Encoding.text c.description

structure Interface where
  component : Component
  parameters : Table
  points : Registry
  deriving DecidableEq, Repr, Inhabited

namespace Interface

open Description (Error)

/-- Applies the description's own overrides to its parameters, then those of the host,
and resolves the connection points against the result. -/
def resolve (d : Description) (overrides : Overrides) : Except Error Interface := do
  let declared ← (Table.ofDeclarations d.parameters).mapError .parameter
  let described ← (declared.applyOverrides d.overrides).toExcept.mapError .parameter
  let parameters ← (described.applyOverrides overrides).toExcept.mapError .parameter
  let points ← (Registry.ofDeclarations parameters.environment d.points).mapError .point
  return { component := d.component, parameters, points }

/-- Applies host overrides and resolves the connection points again: all or nothing. -/
def update (i : Interface) (overrides : Overrides) : Outcome Interface Error Unit :=
  .commit i do
    let parameters ← (i.parameters.applyOverrides overrides).toExcept.mapError .parameter
    let points ← (i.points.refresh parameters.environment).toExcept.mapError .point
    return ({ i with parameters, points }, ())

/-- Elaborates the connection points against the parameters. -/
def elaborate (i : Interface) : Outcome Interface Error (List Binding) :=
  ((i.points.elaborate i.parameters).mapError .point).mapState
    fun (points, parameters) => { i with parameters, points }

def outline (i : Interface) : List Outline :=
  let version := if i.component.version.isEmpty then "" else s!" version {i.component.version}"
  .line (s!"Component: {i.component.name}" ++ version)
    :: (if i.component.description.isEmpty then []
        else [.nested [.line i.component.description]])
    ++ .blank :: i.parameters.outline
    ++ .blank :: i.points.outline

/-- The outline as text. -/
def dump (i : Interface) : String := Outline.render i.outline

def encode (i : Interface) : Encoding.Bytes :=
  i.component.encode ++ i.parameters.encode ++ i.points.encode

/-- The digest of the component, its parameters and its connection points. -/
def fingerprint (i : Interface) : Digest := Encoding.digest i.encode

end Interface

end Interconnect
