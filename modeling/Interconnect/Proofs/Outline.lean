import Interconnect.Interface

/-! # The lines of an outline

Every call that writes a line or a blank writes one row, which is indented by the number of
blocks around the call. A row ends with a newline. A newline inside the text of a call
splits its row, and what follows it starts at the margin: the written lines are the rows
exactly when no text has a newline.
-/

namespace Interconnect

namespace Outline

/-- What one call writes before its newline. -/
inductive Row where
  | line (depth : Nat) (text : String)
  | blank
  deriving DecidableEq

/-- A line stands behind the spaces of its depth, and a blank row is empty. -/
def Row.chars : Row → List Char
  | line depth text => List.replicate (indent * depth) ' ' ++ text.toList
  | blank => []

mutual

/-- The rows of an item at a depth, in the order of the calls. -/
def rows (depth : Nat) : Outline → List Row
  | line text => [.line depth text]
  | blank => [.blank]
  | mark => []
  | nested items => rowsAll (depth + 1) items

def rowsAll (depth : Nat) : List Outline → List Row
  | [] => []
  | item :: items => rows depth item ++ rowsAll depth items

end

/-- The calls of an outline put one line each: the text that they append consists of their
rows, each with a newline, and the pen stands at its depth again. -/
structure LaidOut (pen : Pen) (items : List Outline) : Prop where
  depth : (writeAll pen items).depth = pen.depth
  lines : ∃ added : String, (writeAll pen items).text = pen.text ++ added ∧
    added.toList.splitOn '\n' = (rowsAll pen.depth items).map Row.chars ++ [[]]

theorem toList_pushn (s : String) (c : Char) (n : Nat) :
    (s.pushn c n).toList = s.toList ++ List.replicate n c := by
  rw [String.pushn_eq_repeat_push]
  induction n with
  | zero => exact (List.append_nil _).symm
  | succ n ih => rw [Nat.repeat, String.toList_push, ih, List.replicate_succ', List.append_assoc]

/-- The rows as written, each with its newline. -/
def Row.written (rows : List Row) : List Char := rows.flatMap fun r => r.chars ++ ['\n']

theorem Row.written_cons (r : Row) (rows : List Row) :
    written (r :: rows) = r.chars ++ '\n' :: written rows := by
  rw [written, List.flatMap_cons, List.append_assoc, written]
  rfl

theorem Row.written_append (rows rows' : List Row) :
    written (rows ++ rows') = written rows ++ written rows' := List.flatMap_append

theorem rowsAll_append (depth : Nat) (xs ys : List Outline) :
    rowsAll depth (xs ++ ys) = rowsAll depth xs ++ rowsAll depth ys := by
  induction xs with
  | nil => rw [rowsAll, List.nil_append, List.nil_append]
  | cons x xs ih => rw [List.cons_append, rowsAll, rowsAll, ih, List.append_assoc]

mutual

/-- One item appends its rows; a nested block does so one level deeper. -/
theorem toList_write (pen : Pen) (item : Outline) :
    (write pen item).text.toList = pen.text.toList ++ Row.written (rows pen.depth item) := by
  cases item with
  | line text => simp [write, rows, Row.written, Row.chars, toList_pushn]
  | blank => simp [write, rows, Row.written, Row.chars]
  | mark => simp [write, rows, Row.written]
  | nested items => exact toList_writeAll { pen with depth := pen.depth + 1 } items

theorem toList_writeAll (pen : Pen) (items : List Outline) :
    (writeAll pen items).text.toList
      = pen.text.toList ++ Row.written (rowsAll pen.depth items) := by
  cases items with
  | nil => simp [writeAll, rowsAll, Row.written]
  | cons item items =>
    rw [writeAll, toList_writeAll _ items, toList_write pen item, depth_write, rowsAll,
      List.append_assoc, Row.written_append]

end

theorem splitOn_written (rows : List Row) :
    (Row.written rows).splitOn '\n' = rows.flatMap (fun r => r.chars.splitOn '\n') ++ [[]] := by
  induction rows with
  | nil => rfl
  | cons r rows ih =>
    rw [Row.written_cons, List.splitOn_append_cons_self, ih, List.flatMap_cons, List.append_assoc]

theorem length_splitOn (c : Char) (cs : List Char) :
    (cs.splitOn c).length = cs.count c + 1 := by
  induction cs with
  | nil => rfl
  | cons d cs ih =>
    rw [List.splitOn_cons_eq_if_modifyHead, List.count_cons]
    cases d == c <;> simp [ih]

theorem length_flatMap_splitOn (rows : List Row) :
    (rows.flatMap fun r => r.chars.splitOn '\n').length
      = rows.length + (rows.flatMap Row.chars).count '\n' := by
  induction rows with
  | nil => rfl
  | cons r rows ih =>
    simp only [List.flatMap_cons, List.length_append, length_splitOn, ih, List.length_cons,
      List.count_append]
    omega

/-- The rows are the written lines when none of them has a newline, and only then: a newline
makes one line too many. -/
theorem flatMap_splitOn_eq_iff (rows : List Row) :
    rows.flatMap (fun r => r.chars.splitOn '\n') = rows.map Row.chars
      ↔ ∀ r ∈ rows, '\n' ∉ r.chars := by
  constructor
  · intro h r hr
    have hlength := congrArg List.length h
    rw [length_flatMap_splitOn, List.length_map] at hlength
    have hcount : (rows.flatMap Row.chars).count '\n' = 0 := by omega
    exact fun hmem => List.count_eq_zero.mp hcount (List.mem_flatMap.mpr ⟨r, hr, hmem⟩)
  · intro h
    rw [List.map_eq_flatMap, List.flatMap_def, List.flatMap_def]
    exact congrArg List.flatten
      (List.map_congr_left fun r hr => List.splitOn_eq_singleton (h r hr))

theorem exists_added (pen : Pen) (items : List Outline) :
    ∃ added : String, (writeAll pen items).text = pen.text ++ added ∧
      added.toList = Row.written (rowsAll pen.depth items) := by
  refine ⟨String.ofList (Row.written (rowsAll pen.depth items)), ?_, String.toList_ofList⟩
  rw [← String.toList_inj, toList_writeAll, String.toList_append, String.toList_ofList]

theorem laidOut_iff (pen : Pen) (items : List Outline) :
    LaidOut pen items ↔ ∀ r ∈ rowsAll pen.depth items, '\n' ∉ r.chars := by
  rw [← flatMap_splitOn_eq_iff]
  obtain ⟨added, htext, hadded⟩ := exists_added pen items
  have hsplit : added.toList.splitOn '\n' = _ := hadded ▸ splitOn_written _
  constructor
  · rintro ⟨-, added', htext', hsplit'⟩
    obtain rfl : added = added' := (String.append_right_inj _).mp (htext.symm.trans htext')
    exact List.append_cancel_right (hsplit.symm.trans hsplit')
  · intro h
    exact ⟨depth_writeAll pen items, added, htext, h ▸ hsplit⟩

end Outline

namespace Interface

open Outline (LaidOut Pen Row rowsAll writeAll)

theorem toList_dump (i : Interface) : i.dump.toList = Row.written (rowsAll 0 i.outline) :=
  Outline.toList_writeAll {} i.outline

theorem splitOn_dump_iff (i : Interface) :
    i.dump.toList.splitOn '\n' = (rowsAll 0 i.outline).map Row.chars ++ [[]]
      ↔ ∀ r ∈ rowsAll 0 i.outline, '\n' ∉ r.chars := by
  rw [toList_dump, Outline.splitOn_written, List.append_left_inj, Outline.flatMap_splitOn_eq_iff]

/-- Writing an outline appends the rows of its calls in order, each split at the newlines in
it, and restores the depth. There is one line for each call exactly when no row has a
newline; so it is for the lines of a dump. -/
theorem laidOut_of_newlineFree (pen : Pen) (items : List Outline) :
    ((writeAll pen items).depth = pen.depth ∧
      ∃ added : String, (writeAll pen items).text = pen.text ++ added ∧
        added.toList.splitOn '\n'
          = (rowsAll pen.depth items).flatMap (fun r => r.chars.splitOn '\n') ++ [[]]) ∧
    (LaidOut pen items ↔ ∀ r ∈ rowsAll pen.depth items, '\n' ∉ r.chars) ∧
    ∀ i : Interface,
      i.dump.toList.splitOn '\n' = (rowsAll 0 i.outline).map Row.chars ++ [[]]
        ↔ ∀ r ∈ rowsAll 0 i.outline, '\n' ∉ r.chars := by
  obtain ⟨added, htext, hadded⟩ := Outline.exists_added pen items
  refine ⟨⟨Outline.depth_writeAll pen items, added, htext, ?_⟩, Outline.laidOut_iff pen items,
    splitOn_dump_iff⟩
  rw [hadded, Outline.splitOn_written]

/-- Lines and a blank at three depths. -/
def nestedItems : List Outline :=
  [.line "Parameters", .nested [.line "WIDTH", .mark, .nested [.line "units: bits"], .blank]]

theorem laidOut_of_newlineFree_nestedItems :
    LaidOut { text := "Component", depth := 1 } nestedItems ∧
      rowsAll 1 nestedItems
        = [.line 1 "Parameters", .line 2 "WIDTH", .line 3 "units: bits", .blank] :=
  ⟨(laidOut_of_newlineFree _ nestedItems).2.1.mpr (by decide), rfl⟩

/-- A component that is described in two lines. -/
def twoLined : Description where
  component := { name := "demo", version := "", description := "two\nstreams" }
  parameters := []
  points := []
  overrides := []

/-- The second line of the description stands at the margin of the dump. -/
theorem not_laidOut_twoLined :
    ∃ i, resolve twoLined [] = .ok i ∧ ¬ LaidOut {} i.outline := by
  refine ⟨_, rfl, fun h => ?_⟩
  have hrow := (Outline.laidOut_iff _ _).mp h (.line 1 "two\nstreams") (by decide)
  exact hrow (by decide)

end Interface

end Interconnect
