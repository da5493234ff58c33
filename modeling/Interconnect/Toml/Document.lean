import Interconnect.Toml.Node
import Interconnect.Toml.Number

/-! # TOML documents

Values, inline tables and whole documents. A document is a sequence of lines: headers
open a table, and keys set values in the table that is open. The open table is kept
apart from the tree until the next header puts it back.
-/

namespace Interconnect.Toml

namespace Reader

/-- Blanks, line ends and comments, as they may stand inside an array. -/
def gaps : Nat → Reader Unit
  | 0 => fun _ => none
  | fuel + 1 => do
    blanks
    match ← peek? with
    | some '#' =>
      comment
      newline
      gaps fuel
    | some '\n' | some '\r' =>
      newline
      gaps fuel
    | _ => pure ()

def gap : Reader Unit := bounded gaps

def boolean : Reader Value :=
  (do exactly ['t', 'r', 'u', 'e']; return .boolean true)
    <|> (do exactly ['f', 'a', 'l', 's', 'e']; return .boolean false)

mutual

/-- A value of any type, told apart by its first character. -/
def value : Nat → Reader Value
  | 0 => fun _ => none
  | fuel + 1 => do
    match ← peek? with
    | some '"' | some '\'' => return .text (← string)
    | some '[' =>
      char '['
      items fuel []
    | some '\x7b' =>
      char '\x7b'
      pairs fuel Node.empty
    | some 't' | some 'f' => boolean
    | some 'i' | some 'n' => return .float (String.ofList (← specialFloat))
    | _ => number

/-- The items of an array up to its closing bracket; a comma may follow the last. -/
def items : Nat → List Value → Reader Value
  | 0, _ => fun _ => none
  | fuel + 1, done => do
    gap
    match ← optional (char ']') with
    | some _ => return .array done.reverse
    | none =>
      let item ← value fuel
      gap
      match ← optional (char ',') with
      | some _ => items fuel (item :: done)
      | none =>
        char ']'
        return .array (item :: done).reverse

/-- The pairs of an inline table up to its closing brace, all on one line; no comma may
follow the last. -/
def pairs : Nat → Node → Reader Value
  | 0, _ => fun _ => none
  | fuel + 1, done => do
    match ← optional (do blanks; char '\x7d') with
    | some _ => if done matches .table _ _ [] then return done.toValue else failure
    | none =>
      let (path, name) ← key
      char '='
      blanks
      let v ← value fuel
      blanks
      match done.setKey path name v with
      | none => failure
      | some done =>
        match ← optional (char ',') with
        | some _ => pairs fuel done
        | none =>
          char '\x7d'
          return done.toValue

end

/-- A value within the remaining characters: each step into it and each of its items
takes at most two steps. -/
def anyValue : Reader Value := fun cs => value (2 * cs.length + 2) cs

end Reader

/-- The tree so far, and the open table with the place where it belongs. -/
structure Assembly where
  root : Node
  opened : Node
  /-- The path and the key of the header, and whether it is that of an array; none for
  the keys before the first header. -/
  header : Option (List String × String × Bool)

namespace Assembly

def start : Assembly := ⟨.empty, .empty, none⟩

/-- Puts the open table back into the tree. -/
def close (a : Assembly) : Option Node :=
  match a.header with
  | none => some a.opened
  | some (path, key, false) => a.root.closeTable path key a.opened
  | some (path, key, true) => a.root.closeArray path key a.opened

def openTable (a : Assembly) (path : List String) (key : String) : Option Assembly := do
  let root ← a.close
  let (root, opened) ← root.openTable path key
  return ⟨root, opened, some (path, key, false)⟩

def openArray (a : Assembly) (path : List String) (key : String) : Option Assembly := do
  let root ← a.close
  let root ← root.openArray path key
  return ⟨root, .empty, some (path, key, true)⟩

def setKey (a : Assembly) (path : List String) (key : String) (v : Value) :
    Option Assembly := do
  let opened ← a.opened.setKey path key v
  return { a with opened }

end Assembly

namespace Reader

/-- A header line of an array of tables or of a table. -/
def header (a : Assembly) : Reader Assembly := do
  match ← optional (exactly ['[', '[']) with
  | some _ =>
    let (path, name) ← key
    exactly [']', ']']
    trailing
    a.openArray path name
  | none =>
    char '['
    let (path, name) ← key
    char ']'
    trailing
    a.openTable path name

/-- A line that sets a key. -/
def assignment (a : Assembly) : Reader Assembly := do
  let (path, name) ← key
  char '='
  blanks
  let v ← anyValue
  trailing
  a.setKey path name v

/-- The lines of a document. -/
def document : Nat → Assembly → Reader Assembly
  | 0, _ => fun _ => none
  | fuel + 1, a => do
    blanks
    match ← peek? with
    | none => return a
    | some '#' =>
      comment
      lineEnd
      document fuel a
    | some '\n' | some '\r' =>
      newline
      document fuel a
    | some '[' => document fuel (← header a)
    | some _ => document fuel (← assignment a)

end Reader

/-- Reads a document; a byte order mark in front does not count. -/
def parse? (text : String) : Option Value := do
  let cs := match text.toList with
    | '\uFEFF' :: cs => cs
    | cs => cs
  let (a, _) ← Reader.bounded (fun fuel => Reader.document fuel .start) cs
  let root ← a.close
  return root.toValue

end Interconnect.Toml
