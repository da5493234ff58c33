import Interconnect.Toml.Value

/-! # Tables under construction

While a document is read, a table knows whether it was only mentioned on the way to
another one, and whether a dotted key made it. These marks decide which later headers
and keys may extend it.
-/

namespace Interconnect.Toml

/-- A finished value, a table, or the tables of an array of tables. A table is implicit
when no header opened it, and dotted when a dotted key made it. -/
inductive Node where
  | value (v : Value)
  | table (implicit dotted : Bool) (entries : List (String × Node))
  | tables (items : List Node)
  deriving Inhabited

namespace Node

def empty : Node := table false false []

mutual

def toValue : Node → Value
  | value v => v
  | table _ _ entries => .table (entryValues entries)
  | tables items => .array (itemValues items)

def entryValues : List (String × Node) → List (String × Value)
  | [] => []
  | (key, node) :: rest => (key, toValue node) :: entryValues rest

def itemValues : List Node → List Value
  | [] => []
  | node :: rest => toValue node :: itemValues rest

end

/-- Entries with the value of a key replaced. -/
def replace (entries : List (String × Node)) (key : String) (node : Node) :
    List (String × Node) :=
  entries.map fun e => if e.1 = key then (key, node) else e

/-- Changes the table that a path leads to. Missing tables are made on the way, implicit
and dotted as the path is; an array of tables leads to its last table. A dotted path
does not enter a table that a header opened. -/
def descend {α : Type} (dotted : Bool) (change : Node → Option (Node × α)) :
    List String → Node → Option (Node × α)
  | [], node => change node
  | key :: path, table implicit own entries =>
    match entries.lookup key with
    | none =>
      (descend dotted change path (table true dotted [])).map fun (child, a) =>
        (table implicit own (entries ++ [(key, child)]), a)
    | some (table childImplicit childDotted childEntries) =>
      if dotted && !childImplicit then none
      else
        (descend dotted change path (table childImplicit childDotted childEntries)).map
          fun (child, a) => (table implicit own (replace entries key child), a)
    | some (tables items) =>
      match items.getLast? with
      | none => none
      | some last =>
        (descend dotted change path last).map fun (child, a) =>
          (table implicit own (replace entries key (tables (items.dropLast ++ [child]))), a)
    | some (value _) => none
  | _ :: _, _ => none

/-- Sets a key below a dotted path. The key must be new, and the last table of a path
that is not empty must be a dotted one. -/
def setKey (node : Node) (path : List String) (key : String) (v : Value) : Option Node :=
  let set : Node → Option (Node × Unit)
    | table implicit dotted entries =>
      if dotted == path.isEmpty || (entries.lookup key).isSome then none
      else some (table implicit dotted (entries ++ [(key, value v)]), ())
    | _ => none
  (descend true set path node).map Prod.fst

/-- Takes the table that a header opens out of the tree: a new one, or one that was only
mentioned before. -/
def openTable (node : Node) (path : List String) (key : String) : Option (Node × Node) :=
  let take : Node → Option (Node × Node)
    | table implicit dotted entries =>
      match entries.lookup key with
      | none => some (table implicit dotted entries, empty)
      | some (table true false children) =>
        some (table implicit dotted (entries.filter fun e => e.1 != key),
          table false false children)
      | some _ => none
    | _ => none
  descend false take path node

/-- Makes room for one more table of an array of tables. -/
def openArray (node : Node) (path : List String) (key : String) : Option Node :=
  let make : Node → Option (Node × Unit)
    | table implicit dotted entries =>
      match entries.lookup key with
      | none => some (table implicit dotted (entries ++ [(key, tables [])]), ())
      | some (tables _) => some (table implicit dotted entries, ())
      | some _ => none
    | _ => none
  (descend false make path node).map Prod.fst

/-- Puts a finished table back where its header stands. -/
def closeTable (node : Node) (path : List String) (key : String) (child : Node) :
    Option Node :=
  let put : Node → Option (Node × Unit)
    | table implicit dotted entries =>
      if (entries.lookup key).isSome then none
      else some (table implicit dotted (entries ++ [(key, child)]), ())
    | _ => none
  (descend false put path node).map Prod.fst

/-- Appends a finished table to its array. -/
def closeArray (node : Node) (path : List String) (key : String) (child : Node) :
    Option Node :=
  let put : Node → Option (Node × Unit)
    | table implicit dotted entries =>
      match entries.lookup key with
      | some (tables items) =>
        some (table implicit dotted (replace entries key (tables (items ++ [child]))), ())
      | _ => none
    | _ => none
  (descend false put path node).map Prod.fst

end Node

end Interconnect.Toml
