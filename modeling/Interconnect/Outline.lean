/-! # Outlines

A dump is an outline: lines, blank lines and nested blocks. Writing an outline
threads a pen, which holds the text so far and the depth of nesting. A mark writes
nothing and notes the depth at which it stands.
-/

namespace Interconnect

inductive Outline where
  | line (text : String)
  | blank
  | mark
  | nested (items : List Outline)
  deriving Repr, Inhabited

namespace Outline

/-- Spaces for each level of nesting. -/
def indent : Nat := 4

/-- The text written so far, the current depth, and the depths marked, in order. -/
structure Pen where
  text : String := ""
  depth : Nat := 0
  marks : List Nat := []
  deriving DecidableEq, Repr

mutual

/-- Writes one item at the current depth; a nested block restores the depth. -/
def write (pen : Pen) : Outline → Pen
  | line t =>
    { pen with text := pen.text ++ "".pushn ' ' (indent * pen.depth) ++ t ++ "\n" }
  | blank => { pen with text := pen.text ++ "\n" }
  | mark => { pen with marks := pen.marks ++ [pen.depth] }
  | nested items =>
    let inner := writeAll { pen with depth := pen.depth + 1 } items
    { inner with depth := inner.depth - 1 }

def writeAll (pen : Pen) : List Outline → Pen
  | [] => pen
  | item :: items => writeAll (write pen item) items

end

/-- The text of an outline that starts at depth zero. -/
def render (items : List Outline) : String := (writeAll {} items).text

mutual

theorem depth_write (pen : Pen) (item : Outline) : (write pen item).depth = pen.depth := by
  cases item with
  | line | blank | mark => rfl
  | nested items => simp [write, depth_writeAll _ items]

theorem depth_writeAll (pen : Pen) (items : List Outline) :
    (writeAll pen items).depth = pen.depth := by
  cases items with
  | nil => rfl
  | cons item items => rw [writeAll, depth_writeAll _ items, depth_write pen item]

end

end Outline

end Interconnect
