import Interconnect.Description.PointTable
import Interconnect.Toml.Document

/-! # Descriptions

A description names a component and declares its parameters and connection points. It
is drafted from a document first, with the connection points still as tables. A draft
is completed by reading those tables and checking that nothing lacks a name.
-/

namespace Interconnect

/-- What a description says about the component as a whole. -/
structure Component where
  name : String
  version : String := ""
  description : String := ""
  deriving DecidableEq, Repr, Inhabited

structure Description where
  component : Component
  parameters : List Parameter.Declaration
  points : List Point.Declaration
  /-- Values assigned before any host value, in the order of their names. -/
  overrides : Parameter.Overrides
  deriving DecidableEq, Repr, Inhabited

namespace Description

open Toml (Convention Fields Value)

/-- A description whose connection points have not been read yet. -/
structure Draft where
  component : Component
  parameters : List Parameter.Declaration
  points : List Fields
  overrides : Parameter.Overrides
  deriving Inhabited

namespace Draft

/-- A date-time is no text, and surplus items of an array are ignored. -/
def convention : Convention := ⟨false, true⟩

def text (v : Value) : Option String := v.text? convention

def scalar (v : Value) : Option Scalar := v.scalar? convention

def component? (v : Value) : Option Component := do
  let fs ← v.fields? convention ["name", "version", "description"]
  let name ← fs.required "name" text
  let version ← fs.orDefault "version" "" text
  let description ← fs.orDefault "description" "" text
  return { name, version, description }

/-- A list of values, or a text. -/
def allowed? (v : Value) : Option Parameter.Allowed :=
  match v with
  | .array items => (items.mapM scalar).map .list
  | v => (text v).map .text

def parameter? (v : Value) : Option Parameter.Declaration := do
  let fs ← v.fields? convention
    ["name", "kind", "value", "allowed", "units", "description", "derived"]
  let name ← fs.required "name" text
  let kind ← fs.required "kind" text
  let value ← fs.optional "value" scalar
  let allowed ← fs.optional "allowed" allowed?
  let units ← fs.optional "units" text
  let description ← fs.optional "description" text
  let derived ← fs.orDefault "derived" false Value.boolean?
  return { name, kind, value, allowed, units, description, derived }

def override? (entry : String × Value) : Option (String × Scalar) :=
  (scalar entry.2).map fun raw => (entry.1, raw)

/-- The overrides of a table, in the order of their names. -/
def overrides? (v : Value) : Option Parameter.Overrides := do
  let entries ← v.entries?
  let overrides ← entries.mapM override?
  return overrides.mergeSort fun a b => a.1 ≤ b.1

/-- The table of a connection point, with the date-times that its values stand for. -/
def point? (v : Value) : Option Fields := v.entries?.bind Value.settleEntries?

/-- Drafts a description. Only the component is required. -/
def ofToml? (document : Value) : Option Draft := do
  let fs ← document.entries?
  let component ← fs.required "component" component?
  let parameters ← fs.orDefault "parameter" [] (·.list? parameter?)
  let points ← fs.orDefault "connection_point" [] (·.list? point?)
  let overrides ← fs.orDefault "overrides" [] overrides?
  return { component, parameters, points, overrides }

/-- Reads the tables from the given index on; the first fault is reported. -/
def declarations (index : Nat) : List Fields → Except Error (List Point.Declaration)
  | [] => .ok []
  | fs :: rest => do
    let d ← PointTable.declaration index fs
    let ds ← declarations (index + 1) rest
    return d :: ds

end Draft

/-- Refuses the first item, from the given index on, one of whose names is blank. -/
def checkNames {α : Type} (names : α → List String) (field : Nat → String) (index : Nat) :
    List α → Except Error Unit
  | [] => .ok ()
  | item :: items =>
    if (names item).any Text.isBlankText then .error (.missingField (field index))
    else checkNames names field (index + 1) items

/-- Checks that the component, the parameters and the connection points have names, in
this order. -/
def check (d : Description) : Except Error Unit := do
  if Text.isBlankText d.component.name then .error (.missingField "component.name")
  checkNames (fun p => [p.name]) (fun i => s!"parameter[{i}].name") 0 d.parameters
  checkNames Point.Declaration.names (fun i => s!"connection_point[{i}].name") 0 d.points

/-- Completes a draft: every connection point is read before any name is checked. -/
def ofDraft (draft : Draft) : Except Error Description := do
  let points ← Draft.declarations 0 draft.points
  let d : Description :=
    { component := draft.component, parameters := draft.parameters, points,
      overrides := draft.overrides }
  d.check
  return d

/-- Reads a description from a text that the reader makes a draft of. -/
def load (read? : String → Option Draft) (text : String) : Except Error Description :=
  match read? text with
  | some draft => ofDraft draft
  | none => .error .malformed

/-- Drafts a description from the text of a TOML document. Values may be nested as deep as the
text goes; a reader that bounds the depth drafts fewer texts. -/
def Draft.ofText? (text : String) : Option Draft := (Toml.parse? text).bind ofToml?

/-- Reads a description from a TOML document. -/
def ofText (text : String) : Except Error Description := load Draft.ofText? text

/-- Reads a description from the bytes of a file, if there is one. -/
def ofFile (contents : Option ByteArray) : Except Error Description :=
  match contents.bind String.fromUTF8? with
  | some text => ofText text
  | none => .error .unreadable

end Description

end Interconnect
