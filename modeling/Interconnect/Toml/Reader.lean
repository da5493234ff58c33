/-! # Characters and strings of TOML

A reader takes a value from the front of the remaining characters, or fails. Here are
the readers of blanks, line ends, comments, keys and the four kinds of strings.
-/

namespace Interconnect.Toml

abbrev Reader := StateT (List Char) Option

namespace Reader

def isBlank (c : Char) : Bool := c == ' ' || c == '\t'

/-- Characters beyond ASCII, which may stand in strings and comments. -/
def isWide (c : Char) : Bool := 0x80 ≤ c.toNat

/-- The characters of a comment. -/
def isCommentChar (c : Char) : Bool :=
  c == '\t' || (0x20 ≤ c.toNat && c.toNat ≤ 0x7E) || isWide c

/-- The characters that stand for themselves between double quotes. -/
def isBasicChar (c : Char) : Bool := isCommentChar c && c != '"' && c != '\\'

/-- The characters that stand for themselves between single quotes. -/
def isLiteralChar (c : Char) : Bool := isCommentChar c && c != '\''

def isBareKeyChar (c : Char) : Bool := c.isAlphanum || c == '_' || c == '-'

def hexDigit? (c : Char) : Option Nat :=
  if c.isDigit then some (c.toNat - 0x30)
  else if 'a' ≤ c && c ≤ 'f' then some (c.toNat - 0x61 + 10)
  else if 'A' ≤ c && c ≤ 'F' then some (c.toNat - 0x41 + 10)
  else none

def peek? : Reader (Option Char) := fun cs => some (cs.head?, cs)

/-- The longest run of characters with the property. -/
def takeWhile (p : Char → Bool) : Reader (List Char) := fun cs =>
  some (cs.takeWhile p, cs.dropWhile p)

/-- Exactly the given characters. -/
def exactly (s : List Char) : Reader Unit := fun cs =>
  if s.isPrefixOf cs then some ((), cs.drop s.length) else none

def char (c : Char) : Reader Unit := exactly [c]

/-- One character with the property. -/
def satisfying (p : Char → Bool) : Reader Char
  | c :: cs => if p c then some (c, cs) else none
  | [] => none

/-- The value of a reader, or none where it fails, which then reads nothing. -/
def optional {α : Type} (r : Reader α) : Reader (Option α) := fun cs =>
  match r cs with
  | some (a, rest) => some (some a, rest)
  | none => some (none, cs)

def blanks : Reader Unit := do let _ ← takeWhile isBlank

def newline : Reader Unit
  | '\n' :: cs => some ((), cs)
  | '\r' :: '\n' :: cs => some ((), cs)
  | _ => none

def comment : Reader Unit := do
  char '#'
  let _ ← takeWhile isCommentChar

/-- The end of a line or of the document. -/
def lineEnd : Reader Unit
  | [] => some ((), [])
  | cs => newline cs

/-- What may follow a header or a value on its line. -/
def trailing : Reader Unit := do
  blanks
  let _ ← optional comment
  lineEnd

/-- Blanks and line ends, from one line end on. -/
def skipLines : List Char → List Char
  | ' ' :: cs => skipLines cs
  | '\t' :: cs => skipLines cs
  | '\n' :: cs => skipLines cs
  | '\r' :: '\n' :: cs => skipLines cs
  | cs => cs

/-- The character with the code that the digits give, unless it is no scalar value. -/
def unicode? (digits : List Char) : Option Char := do
  let ns ← digits.mapM hexDigit?
  let n := ns.foldl (fun n d => 16 * n + d) 0
  if h : n.isValidChar then some (Char.ofNatAux n h) else none

/-- The character of an escape sequence, after the backslash. -/
def escape : Reader Char
  | 'b' :: cs => some ('\x08', cs)
  | 'f' :: cs => some ('\x0c', cs)
  | 'n' :: cs => some ('\n', cs)
  | 'r' :: cs => some ('\r', cs)
  | 't' :: cs => some ('\t', cs)
  | '"' :: cs => some ('"', cs)
  | '\\' :: cs => some ('\\', cs)
  | 'u' :: cs => if cs.length < 4 then none else (unicode? (cs.take 4)).map (·, cs.drop 4)
  | 'U' :: cs => if cs.length < 8 then none else (unicode? (cs.take 8)).map (·, cs.drop 8)
  | _ => none

/-- The rest of a string in double quotes. -/
def basicBody : Nat → Reader (List Char)
  | 0, _ => none
  | fuel + 1, cs =>
    match cs with
    | '"' :: rest => some ([], rest)
    | '\\' :: rest => do
      let (c, rest) ← escape rest
      let (s, rest) ← basicBody fuel rest
      return (c :: s, rest)
    | c :: rest =>
      if isBasicChar c then do
        let (s, rest) ← basicBody fuel rest
        return (c :: s, rest)
      else none
    | [] => none

/-- The rest of a string in three double quotes. Up to two quotes may stand before the
closing three, and a backslash at a line end joins the lines. -/
def basicLines : Nat → Reader (List Char)
  | 0, _ => none
  | fuel + 1, cs =>
    match cs with
    | '"' :: '"' :: '"' :: '"' :: '"' :: rest => some (['"', '"'], rest)
    | '"' :: '"' :: '"' :: '"' :: rest => some (['"'], rest)
    | '"' :: '"' :: '"' :: rest => some ([], rest)
    | '\\' :: rest =>
      match newline (rest.dropWhile isBlank) with
      | some (_, rest) => basicLines fuel (skipLines rest)
      | none => do
        let (c, rest) ← escape rest
        let (s, rest) ← basicLines fuel rest
        return (c :: s, rest)
    | '\r' :: '\n' :: rest => do
      let (s, rest) ← basicLines fuel rest
      return ('\n' :: s, rest)
    | c :: rest =>
      if isBasicChar c || c == '"' || c == '\n' then do
        let (s, rest) ← basicLines fuel rest
        return (c :: s, rest)
      else none
    | [] => none

/-- The rest of a string in three single quotes. -/
def literalLines : Nat → Reader (List Char)
  | 0, _ => none
  | fuel + 1, cs =>
    match cs with
    | '\'' :: '\'' :: '\'' :: '\'' :: '\'' :: rest => some (['\'', '\''], rest)
    | '\'' :: '\'' :: '\'' :: '\'' :: rest => some (['\''], rest)
    | '\'' :: '\'' :: '\'' :: rest => some ([], rest)
    | '\r' :: '\n' :: rest => do
      let (s, rest) ← literalLines fuel rest
      return ('\n' :: s, rest)
    | c :: rest =>
      if isLiteralChar c || c == '\'' || c == '\n' then do
        let (s, rest) ← literalLines fuel rest
        return (c :: s, rest)
      else none
    | [] => none

/-- A reader that takes at most one step for each remaining character. -/
def bounded {α : Type} (r : Nat → Reader α) : Reader α := fun cs => r (cs.length + 1) cs

def basicString : Reader String := do
  char '"'
  let s ← bounded basicBody
  return String.ofList s

def literalString : Reader String := do
  char '\''
  let s ← takeWhile isLiteralChar
  char '\''
  return String.ofList s

/-- A string of several lines; a line end right after the quotes does not count. -/
def lines (quotes : List Char) (body : Nat → Reader (List Char)) : Reader String := do
  exactly quotes
  let _ ← optional newline
  let s ← bounded body
  return String.ofList s

/-- A string of any kind. The three quotes of the long kinds are tried first. -/
def string : Reader String := fun cs =>
  match cs with
  | '"' :: '"' :: '"' :: _ => lines ['"', '"', '"'] basicLines cs
  | '\'' :: '\'' :: '\'' :: _ => lines ['\'', '\'', '\''] literalLines cs
  | '"' :: _ => basicString cs
  | _ => literalString cs

/-- One part of a key. -/
def simpleKey : Reader String := fun cs =>
  match cs with
  | '"' :: _ => basicString cs
  | '\'' :: _ => literalString cs
  | _ =>
    match cs.takeWhile isBareKeyChar with
    | [] => none
    | bare => some (String.ofList bare, cs.dropWhile isBareKeyChar)

/-- The parts of a dotted key, with blanks around each. -/
def keyParts : Nat → Reader (List String)
  | 0 => fun _ => none
  | fuel + 1 => do
    blanks
    let part ← simpleKey
    blanks
    match ← optional (char '.') with
    | some _ => return part :: (← keyParts fuel)
    | none => return [part]

/-- A key as the tables it goes through and the name under which it sets a value. -/
def key : Reader (List String × String) := do
  let parts ← bounded keyParts
  match parts.getLast? with
  | some name => return (parts.dropLast, name)
  | none => failure

end Reader

end Interconnect.Toml
