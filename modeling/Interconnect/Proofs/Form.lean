import Interconnect.Toml.Fields
import Interconnect.Proofs.Inversion

/-! # Written forms

The form of a structure says what is written for it: plain values, lists, and the fields of
its parts, of which some may be left out. A table shows a form when every field stands under
its own name. What a table has under other names does not matter, nor does its order. A
reader recovers a structure when it finds it in everything that shows its form.
-/

namespace Interconnect.Toml

/-- What is written for a value. Nothing is written for a field that is left out. -/
inductive Form where
  | absent
  | scalar (raw : Scalar)
  | list (items : List Form)
  | record (fields : List (String × Form))

namespace Form

/-- The form of a part that may be missing. -/
def optional {α : Type} (form : α → Form) : Option α → Form
  | some a => form a
  | none => absent

/-- A value, or its absence, shows a form. A list without items may be left out. Of a record
every field is shown under its name, and other names may have any values. -/
inductive ShownBy : Form → Option Value → Prop where
  | absent : ShownBy absent none
  | flag (b : Bool) : ShownBy (scalar (.flag b)) (some (.boolean b))
  | number (n : UInt64) : ShownBy (scalar (.number n)) (some (.integer n.toNat))
  | text (s : String) : ShownBy (scalar (.text s)) (some (.text s))
  | list {items : List Form} {values : List Value} :
      List.Forall₂ (fun item v => ShownBy item (some v)) items values →
      ShownBy (list items) (some (.array values))
  | noItems : ShownBy (list []) none
  | record {fields : List (String × Form)} {entries : Fields} :
      (∀ field ∈ fields, ShownBy field.2 (entries.lookup field.1)) →
      ShownBy (record fields) (some (.table entries))

mutual

/-- The value that is written for a form, if there is one. -/
def write : Form → Option Value
  | absent => none
  | scalar (.flag b) => some (.boolean b)
  | scalar (.number n) => some (.integer n.toNat)
  | scalar (.text s) => some (.text s)
  | list items => some (.array (writeItems items))
  | record fields => some (.table (writeFields fields))

def writeItems : List Form → List Value
  | [] => []
  | item :: items => (write item).toList ++ writeItems items

/-- The fields of a record in their order, without those that are left out. -/
def writeFields : List (String × Form) → Fields
  | [] => []
  | (name, form) :: fields => (write form).toList.map (name, ·) ++ writeFields fields

end

/-- The fields of every record have distinct names, and no item of a list is left out. -/
inductive Proper : Form → Prop where
  | absent : Proper absent
  | scalar (raw : Scalar) : Proper (scalar raw)
  | list {items : List Form} : (∀ item ∈ items, Proper item) →
      (∀ item ∈ items, (write item).isSome) → Proper (list items)
  | record {fields : List (String × Form)} : (fields.map Prod.fst).Nodup →
      (∀ field ∈ fields, Proper field.2) → Proper (record fields)

theorem lookup_writeFields_of_notMem {fields : List (String × Form)} {name : String}
    (h : name ∉ fields.map Prod.fst) : (writeFields fields).lookup name = none := by
  induction fields with
  | nil => rfl
  | cons field fields ih =>
    rw [List.map_cons, List.mem_cons, not_or] at h
    rw [writeFields, List.lookup_append, ih h.2]
    cases write field.2 <;> simp [h.1]

theorem lookup_writeFields {fields : List (String × Form)} (h : (fields.map Prod.fst).Nodup)
    {field : String × Form} (hmem : field ∈ fields) :
    (writeFields fields).lookup field.1 = write field.2 := by
  induction fields with
  | nil => cases hmem
  | cons other fields ih =>
    rw [List.map_cons, List.nodup_cons] at h
    rw [writeFields, List.lookup_append]
    rcases List.mem_cons.mp hmem with rfl | hmem
    · rw [lookup_writeFields_of_notMem h.1]
      cases write field.2 <;> simp
    · have hne : (field.1 == other.1) = false :=
        beq_false_of_ne fun he => h.1 (he ▸ List.mem_map_of_mem hmem)
      rw [ih h.2 hmem]
      cases write other.2 <;> simp [List.lookup_cons, hne]

theorem forall₂_writeItems {items : List Form}
    (h : ∀ item ∈ items, (write item).isSome ∧ item.ShownBy (write item)) :
    List.Forall₂ (fun item v => ShownBy item (some v)) items (writeItems items) := by
  induction items with
  | nil => exact .nil
  | cons item items ih =>
    obtain ⟨hsome, hshown⟩ := h item List.mem_cons_self
    obtain ⟨v, hv⟩ := Option.isSome_iff_exists.mp hsome
    rw [hv] at hshown
    rw [writeItems, hv]
    exact .cons hshown (ih fun other hother => h other (List.mem_cons_of_mem item hother))

/-- What is written for a proper form shows it. -/
theorem Proper.shownBy_write {form : Form} (h : form.Proper) : form.ShownBy form.write := by
  induction h with
  | absent => exact .absent
  | scalar raw => cases raw with
    | flag b => exact .flag b
    | number n => exact .number n
    | text s => exact .text s
  | list _ hsome ih => exact .list (forall₂_writeItems fun item hm => ⟨hsome item hm, ih item hm⟩)
  | record hnodup _ ih =>
    refine .record fun field hm => ?_
    rw [lookup_writeFields hnodup hm]
    exact ih field hm

theorem Proper.optional {α : Type} {form : α → Form} {o : Option α}
    (h : ∀ a, (form a).Proper) : (Form.optional form o).Proper := by
  cases o with
  | none => exact .absent
  | some a => exact h a

theorem Proper.parts {α : Type} {form : α → Form} {as : List α} (h : ∀ a, (form a).Proper)
    (hsome : ∀ a, (form a).write.isSome) : (Form.list (as.map form)).Proper := by
  apply Proper.list
  · intro item hitem
    obtain ⟨a, -, rfl⟩ := List.mem_map.mp hitem
    exact h a
  · intro item hitem
    obtain ⟨a, -, rfl⟩ := List.mem_map.mp hitem
    exact hsome a

theorem shownBy_record_iff {fields : List (String × Form)} {found : Option Value} :
    (record fields).ShownBy found ↔ ∃ entries, found = some (.table entries) ∧
      ∀ field ∈ fields, field.2.ShownBy (entries.lookup field.1) := by
  constructor
  · rintro (_ | _ | _ | _ | _ | _ | h)
    exact ⟨_, rfl, h⟩
  · rintro ⟨entries, rfl, h⟩
    exact .record h

end Form

variable {α : Type} {read : Value → Option α} {form : α → Form} {c : Convention} {a : α}

/-- The reader finds a value in everything that shows its form. -/
def Recovers (read : Value → Option α) (form : α → Form) : Prop :=
  ∀ a found, (form a).ShownBy found → found.bind read = some a

/-- The reader finds a structure in every table that shows its fields. -/
def RecoversFields (read : Fields → Option α) (fields : α → List (String × Form)) : Prop :=
  ∀ a entries, (∀ field ∈ fields a, field.2.ShownBy (entries.lookup field.1)) →
    read entries = some a

theorem recovers_text (c : Convention) : Recovers (Value.text? c) fun s => .scalar (.text s) := by
  rintro s _ (_ | _)
  rfl

theorem recovers_scalar (c : Convention) : Recovers (Value.scalar? c) .scalar := by
  rintro (b | n | s) _ (_ | _)
  · rfl
  · have hn : (0 : Int) ≤ n.toNat ∧ (n.toNat : Int) < UInt64.size :=
      ⟨Int.natCast_nonneg _, Int.ofNat_lt.mpr n.toNat_lt⟩
    rw [Option.bind_some, Value.scalar?, if_pos hn, Int.toNat_natCast, UInt64.ofNat_toNat]
  · rfl

namespace Recovers

variable {entries : Fields} {name : String}

theorem required (h : Recovers read form) (hshown : (form a).ShownBy (entries.lookup name)) :
    entries.required name read = some a :=
  h a _ hshown

theorem optional (h : Recovers read form) {a : Option α}
    (hshown : (Form.optional form a).ShownBy (entries.lookup name)) :
    entries.optional name read = some a := by
  unfold Fields.optional
  cases a with
  | none =>
    generalize entries.lookup name = found at hshown
    cases hshown
    rfl
  | some a =>
    have hfound := h a _ hshown
    cases hv : entries.lookup name with
    | none => rw [hv] at hfound; cases hfound
    | some v =>
      rw [hv] at hfound
      exact congrArg (Option.map some) hfound

theorem mapM (h : Recovers read form) {as : List α} {values : List Value}
    (hshown : List.Forall₂ (fun item v => Form.ShownBy item (some v)) (as.map form) values) :
    values.mapM read = some as := by
  induction as generalizing values with
  | nil =>
    cases hshown
    rfl
  | cons a as ih =>
    rcases hshown with _ | ⟨ha, hrest⟩
    have hfound : read _ = some a := h a _ ha
    rw [List.mapM_cons, hfound, ih hrest]
    rfl

theorem orDefault (h : Recovers read form) {as : List α}
    (hshown : (Form.list (as.map form)).ShownBy (entries.lookup name)) :
    entries.orDefault name [] (Value.list? read) = some as := by
  unfold Fields.orDefault
  generalize entries.lookup name = found at hshown
  generalize hitems : as.map form = items at hshown
  cases hshown with
  | list hvalues =>
    rw [← hitems] at hvalues
    exact h.mapM hvalues
  | noItems =>
    obtain rfl := List.map_eq_nil_iff.mp hitems
    rfl

theorem part {fields : α → List (String × Form)} {read : Fields → Option α}
    (h : RecoversFields read fields) (names : List String) :
    Recovers (fun v => (v.fields? c names).bind read) fun a => .record (fields a) := by
  intro a found hshown
  obtain ⟨entries, rfl, hfields⟩ := Form.shownBy_record_iff.mp hshown
  exact h a entries hfields

end Recovers

end Interconnect.Toml
