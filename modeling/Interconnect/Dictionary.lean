/-! # Dictionaries

Values under names, in the order in which the names were first inserted. Lookup
finds the first entry of a name; insertion replaces in place or appends.
-/

namespace Interconnect

structure Dictionary (α : Type) where
  entries : List (String × α)
  deriving DecidableEq, Repr

namespace Dictionary

variable {α : Type}

def empty : Dictionary α := ⟨[]⟩

instance : EmptyCollection (Dictionary α) := ⟨empty⟩

instance : Inhabited (Dictionary α) := ⟨empty⟩

def keys (d : Dictionary α) : List String := d.entries.map Prod.fst

def values (d : Dictionary α) : List α := d.entries.map Prod.snd

def size (d : Dictionary α) : Nat := d.entries.length

def isEmpty (d : Dictionary α) : Bool := d.entries.isEmpty

def get? (d : Dictionary α) (name : String) : Option α := d.entries.lookup name

def contains (d : Dictionary α) (name : String) : Bool := (d.get? name).isSome

/-- Replaces the value of a known name, and appends an unknown one. -/
def insert (d : Dictionary α) (name : String) (value : α) : Dictionary α :=
  if d.contains name then
    ⟨d.entries.map fun e => if e.1 = name then (name, value) else e⟩
  else ⟨d.entries ++ [(name, value)]⟩

/-- Changes the value of a name; an unknown name changes nothing. -/
def modify (d : Dictionary α) (name : String) (f : α → α) : Dictionary α :=
  ⟨d.entries.map fun e => if e.1 = name then (e.1, f e.2) else e⟩

/-- Replaces every value, or none when one of them cannot be replaced; the first
failure is reported. -/
def traverse {ε : Type} (f : α → Except ε α) (d : Dictionary α) : Except ε (Dictionary α) :=
  match d.entries.mapM fun e => (f e.2).map (e.1, ·) with
  | .ok entries => .ok ⟨entries⟩
  | .error e => .error e

@[simp] theorem keys_empty : (∅ : Dictionary α).keys = [] := rfl

@[simp] theorem get?_empty (name : String) : (∅ : Dictionary α).get? name = none := rfl

theorem contains_iff_mem_keys {d : Dictionary α} {name : String} :
    d.contains name ↔ name ∈ d.keys := by
  simp [contains, get?, keys]

@[simp] theorem keys_modify (d : Dictionary α) (name : String) (f : α → α) :
    (d.modify name f).keys = d.keys := by
  simp only [keys, modify, List.map_map]
  refine List.map_congr_left fun e _ => ?_
  by_cases h : e.1 = name <;> simp [h]

theorem keys_insert (d : Dictionary α) (name : String) (value : α) :
    (d.insert name value).keys = if name ∈ d.keys then d.keys else d.keys ++ [name] := by
  unfold insert
  by_cases h : d.contains name
  · rw [if_pos h, if_pos (contains_iff_mem_keys.1 h)]
    simp only [keys, List.map_map]
    refine List.map_congr_left fun e _ => ?_
    by_cases he : e.1 = name <;> simp [he]
  · rw [if_neg h, if_neg (mt contains_iff_mem_keys.2 h)]
    simp [keys]

theorem lookup_map_entries (g : String × α → α) (entries : List (String × α)) (name : String) :
    (entries.map fun e => (e.1, g e)).lookup name
      = (entries.lookup name).map fun v => g (name, v) := by
  induction entries with
  | nil => rfl
  | cons e rest ih =>
    obtain ⟨key, value⟩ := e
    rw [List.map_cons, List.lookup_cons, List.lookup_cons, ih]
    cases h : name == key with
    | true => simp [eq_of_beq h]
    | false => rfl

theorem get?_modify (d : Dictionary α) (name other : String) (f : α → α) :
    (d.modify name f).get? other
      = (d.get? other).map fun v => if other = name then f v else v := by
  have h : (d.modify name f).entries
      = d.entries.map fun e => (e.1, if e.1 = name then f e.2 else e.2) := by
    refine List.map_congr_left fun e _ => ?_
    by_cases he : e.1 = name <;> simp [he]
  rw [get?, h]
  exact lookup_map_entries (fun e => if e.1 = name then f e.2 else e.2) d.entries other

end Dictionary

end Interconnect
