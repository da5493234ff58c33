import Interconnect.Proofs.Atomicity

/-! # Elaborations

An elaboration binds every symbolic field to the parameter that it names. A binding is a
first use when its parameter is derived and has not been read before, neither by an earlier
elaboration nor through an earlier field, and the parameters of the first uses are marked.
An interface can be elaborated at any time. That changes nothing but marks, and when it is
elaborated again no binding is a first use.
-/

namespace Interconnect

open Parameter (Overrides Table)

namespace Parameter.Table

/-- The parameter of the name is derived. -/
def derives (t : Table) (name : String) : Bool := (t.get? name).any (·.derived)

/-- The parameter of the name is derived, and no elaboration has read it. -/
def unread (t : Table) (name : String) : Bool :=
  (t.get? name).any fun p => p.derived && !p.consumed

/-- The table with the parameters of the names marked. -/
def consumed (t : Table) (names : List String) : Table :=
  (Outcome.forEach markConsumed t names).state

@[simp] theorem consumed_nil (t : Table) : t.consumed [] = t := rfl

theorem get?_consumed {t : Table} {names : List String} (h : ∀ name ∈ names, t.contains name)
    (other : String) :
    (t.consumed names).get? other
      = (t.get? other).map fun p => if other ∈ names then p.consume else p := by
  induction names generalizing t with
  | nil => simp
  | cons name names ih =>
    rw [List.forall_mem_cons] at h
    have hmark : t.markConsumed name = .succeed (t.modify name consume) () := if_pos h.1
    have hcons : t.consumed (name :: names) = consumed (t.modify name consume) names := by
      rw [consumed, Outcome.forEach_cons, hmark]
      rfl
    have hrest : ∀ n ∈ names, (t.modify name consume).contains n := by
      simpa only [Dictionary.contains_iff_mem_keys, Dictionary.keys_modify] using h.2
    rw [hcons, ih hrest, Dictionary.get?_modify, Option.map_map]
    apply Option.map_congr
    intro p _
    by_cases hn : other = name <;> by_cases hm : other ∈ names <;> simp [hn, hm, consume]

@[simp] theorem unmarked_consumed (t : Table) (names : List String) :
    (t.consumed names).unmarked = t.unmarked :=
  Outcome.forEach_preserves (P := fun s : Table => s.unmarked = t.unmarked)
    (fun s name hs => (unmarked_markConsumed s name).trans hs) rfl names

theorem derives_unmarked (t : Table) (name : String) :
    t.unmarked.derives name = t.derives name := by
  rw [derives, derives, get?_unmarked]
  cases t.get? name <;> rfl

end Parameter.Table

/-- The binding as a later elaboration lists it. -/
def Binding.reread (b : Binding) : Binding := { b with firstUse := false }

/-- The binding of a symbolic field whose parameter has been read before. -/
def Binding.ofField (t : Table) (field : String × String × String) : Binding :=
  ⟨field.1, field.2.1, field.2.2, t.derives field.2.2, false⟩

namespace Registry

variable {t : Table} {used : List String} {fields : List (String × String × String)}

/-- The parameters used after a binding of the key. -/
def use (t : Table) (used : List String) (key : String) : List String :=
  if t.unread key && key ∉ used then key :: used else used

theorem mem_use_iff {name key : String} (h : t.unread name = true) :
    name ∈ use t used key ↔ name = key ∨ name ∈ used := by
  unfold use
  split
  next => exact List.mem_cons
  next hn =>
    refine ⟨Or.inr, ?_⟩
    rintro (rfl | hu)
    · simpa [h] using hn
    · exact hu

theorem bind_cons (field : String × String × String) :
    bind t used (field :: fields) =
      ⟨field.1, field.2.1, field.2.2, t.derives field.2.2,
        t.unread field.2.2 && field.2.2 ∉ used⟩ :: bind t (use t used field.2.2) fields := by
  obtain ⟨point, label, key⟩ := field
  rw [bind]
  cases hp : t.get? key <;> simp [use, Table.derives, Table.unread, hp]

theorem map_reread_bind : (bind t used fields).map Binding.reread = fields.map (.ofField t) := by
  induction fields generalizing used with
  | nil => rfl
  | cons field fields ih =>
    rw [bind_cons, List.map_cons, List.map_cons, ih]
    rfl

theorem map_parameter_bind :
    (bind t used fields).map (·.parameter) = fields.map fun field => field.2.2 := by
  calc (bind t used fields).map (·.parameter)
      = ((bind t used fields).map Binding.reread).map (·.parameter) := by
        rw [List.map_map]; rfl
    _ = fields.map fun field => field.2.2 := by rw [map_reread_bind, List.map_map]; rfl

theorem exists_field_of_mem_bind {b : Binding} (h : b ∈ bind t used fields) :
    ∃ field ∈ fields, b.reread = .ofField t field := by
  have hmem : b.reread ∈ fields.map (.ofField t) := by
    rw [← map_reread_bind]
    exact List.mem_map_of_mem h
  obtain ⟨field, hfield, he⟩ := List.mem_map.mp hmem
  exact ⟨field, hfield, he.symm⟩

theorem bind_eq_of_read (h : ∀ field ∈ fields, t.unread field.2.2 = false) :
    bind t used fields = fields.map (.ofField t) := by
  induction fields generalizing used with
  | nil => rfl
  | cons field fields ih =>
    rw [List.forall_mem_cons] at h
    simp only [bind_cons, h.1, Bool.false_and, ih h.2, List.map_cons]
    rfl

/-- A binding is a first use when its parameter is unread and no earlier binding names it. -/
theorem firstUse_iff_of_bind {before after : List Binding} {b : Binding}
    (h : bind t used fields = before ++ b :: after) :
    b.firstUse = true ↔
      t.unread b.parameter = true ∧ b.parameter ∉ used ∧
        ∀ c ∈ before, c.parameter ≠ b.parameter := by
  induction fields generalizing used before with
  | nil => simp [bind] at h
  | cons field fields ih =>
    rw [bind_cons] at h
    cases before with
    | nil =>
      obtain ⟨rfl, -⟩ := List.cons.inj h
      simp
    | cons c before =>
      obtain ⟨rfl, hrest⟩ := List.cons.inj h
      rw [ih hrest]
      refine and_congr_right fun hu => ?_
      rw [mem_use_iff hu, not_or, List.forall_mem_cons]
      constructor
      · rintro ⟨⟨hne, hused⟩, hbefore⟩; exact ⟨hused, Ne.symm hne, hbefore⟩
      · rintro ⟨hused, hne, hbefore⟩; exact ⟨⟨Ne.symm hne, hused⟩, hbefore⟩

theorem mem_firstUses_iff {name : String} :
    name ∈ firstUses (bind t used fields) ↔
      t.unread name = true ∧ name ∉ used ∧ ∃ b ∈ bind t used fields, b.parameter = name := by
  rw [firstUses, List.mem_map]
  constructor
  · rintro ⟨b, hb, rfl⟩
    obtain ⟨hb, hfirst⟩ := List.mem_filter.mp hb
    obtain ⟨before, after, h⟩ := List.append_of_mem hb
    obtain ⟨hu, hused, -⟩ := (firstUse_iff_of_bind h).mp hfirst
    exact ⟨hu, hused, b, hb, rfl⟩
  · rintro ⟨hu, hused, hb⟩
    obtain ⟨before, after, h, hbefore⟩ := List.eq_append_cons_of_mem (List.mem_map.mpr hb)
    obtain ⟨before, rest, hbind, rfl, hrest⟩ := List.map_eq_append_iff.mp h
    obtain ⟨b, after, rfl, rfl, rfl⟩ := List.map_eq_cons_iff.mp hrest
    have hfirst := (firstUse_iff_of_bind hbind).mpr
      ⟨hu, hused, fun c hc he => hbefore (he ▸ List.mem_map_of_mem hc)⟩
    exact ⟨b, List.mem_filter.mpr ⟨by simp [hbind], hfirst⟩, rfl⟩

theorem firstUses_map_ofField : firstUses (fields.map (.ofField t)) = [] := by
  induction fields with
  | nil => rfl
  | cons _ _ ih => exact ih

variable {r r' : Registry}

theorem mem_firstUses_bindings_iff {name : String} :
    name ∈ firstUses (r.bindings t) ↔
      t.unread name = true ∧ ∃ b ∈ r.bindings t, b.parameter = name := by
  simp only [bindings, mem_firstUses_iff, List.not_mem_nil, not_false_eq_true, true_and]

/-- After a refresh an elaboration cannot fail: the parameters of first uses are there. -/
theorem elaborate_of_refresh_ok (h : r.refresh t.environment = .succeed r' ()) :
    r.elaborate t = .succeed (r', t.consumed (firstUses (bindings r' t))) (bindings r' t) := by
  have hmarked := Table.answer_forEach_markConsumed fun name hname =>
    contains_of_mem_firstUses (r := r') (t := t) hname
  simp only [elaborate, h, Outcome.succeed] at hmarked ⊢
  rw [hmarked]
  rfl

theorem unread_consumed_firstUses {field : String × String × String}
    (h : field ∈ r.symbolicFields) :
    (t.consumed (firstUses (r.bindings t))).unread field.2.2 = false := by
  have hbound : ∃ b ∈ r.bindings t, b.parameter = field.2.2 := by
    rw [← List.mem_map, bindings, map_parameter_bind]
    exact List.mem_map_of_mem h
  have hget : (t.consumed (firstUses (r.bindings t))).get? field.2.2 = _ :=
    Table.get?_consumed (fun _ hname => contains_of_mem_firstUses hname) field.2.2
  rw [Table.unread, hget]
  cases hp : t.get? field.2.2 with
  | none => rfl
  | some p =>
    by_cases hu : t.unread field.2.2 = true
    · have hfirst : field.2.2 ∈ firstUses (r.bindings t) :=
        mem_firstUses_bindings_iff.mpr ⟨hu, hbound⟩
      simp [hfirst, Parameter.consume]
    · have hfirst : field.2.2 ∉ firstUses (r.bindings t) := fun hm =>
        hu (mem_firstUses_bindings_iff.mp hm).1
      simpa [hfirst, Table.unread, hp] using hu

end Registry

namespace Interface

variable {d : Description} {host : Overrides} {i : Interface}

/-- The interface with the first uses of its parameters marked. -/
def elaborated (i : Interface) : Interface :=
  { i with
    parameters :=
      i.parameters.consumed (Registry.firstUses (i.points.bindings i.parameters)) }

theorem elaborate_eq
    (h : Registry.ofDeclarations i.parameters.environment d.points = .ok i.points) :
    i.elaborate = .succeed i.elaborated (i.points.bindings i.parameters) := by
  have hrefresh : i.points.refresh i.parameters.environment = .succeed i.points () := by
    rw [(Registry.built_of_ofDeclarations h).refresh_eq, h]
    rfl
  rw [elaborate, Registry.elaborate_of_refresh_ok hrefresh]
  rfl

@[simp] theorem environment_elaborated (i : Interface) :
    i.elaborated.parameters.environment = i.parameters.environment := by
  rw [← Table.environment_unmarked, elaborated, Table.unmarked_consumed,
    Table.environment_unmarked]

theorem bindings_elaborated (i : Interface) :
    i.points.bindings i.elaborated.parameters
      = (i.points.bindings i.parameters).map Binding.reread := by
  have hderives (name : String) : i.elaborated.parameters.derives name
      = i.parameters.derives name := by
    rw [← Table.derives_unmarked, elaborated, Table.unmarked_consumed, Table.derives_unmarked]
  have hfield : Binding.ofField i.elaborated.parameters = Binding.ofField i.parameters := by
    funext field
    rw [Binding.ofField, Binding.ofField, hderives]
  calc i.points.bindings i.elaborated.parameters
      = i.points.symbolicFields.map (Binding.ofField i.elaborated.parameters) :=
        Registry.bind_eq_of_read fun _ hf => Registry.unread_consumed_firstUses hf
    _ = (i.points.bindings i.parameters).map Binding.reread := by
        rw [hfield, Registry.bindings, Registry.map_reread_bind]

theorem elaborated_elaborated (i : Interface) : i.elaborated.elaborated = i.elaborated := by
  have hfirst : Registry.firstUses (i.points.bindings i.elaborated.parameters) = [] := by
    rw [bindings_elaborated, Registry.bindings, Registry.map_reread_bind,
      Registry.firstUses_map_ofField]
  have hconsumed := congrArg i.elaborated.parameters.consumed hfirst
  rw [elaborated]
  exact congrArg (fun t => { i.elaborated with parameters := t }) hconsumed

/-- In every state of a run the interface can be elaborated. This changes nothing but the
marks of parameters. When it is elaborated once more it does not change at all, and lists
the same bindings without a first use. -/
theorem elaborate_annotates (h : resolve d host = .ok i) (ops : List Operation) :
    ∃ j bs, (i.run ops).elaborate = .succeed j bs ∧
      j.component = (i.run ops).component ∧ j.points = (i.run ops).points ∧
      j.parameters.unmarked = (i.run ops).parameters.unmarked ∧
      j.elaborate = .succeed j (bs.map Binding.reread) := by
  have hpoints := ofDeclarations_run h ops
  generalize i.run ops = s at hpoints
  refine ⟨s.elaborated, _, elaborate_eq hpoints, rfl, rfl, Table.unmarked_consumed _ _, ?_⟩
  have hagain : Registry.ofDeclarations s.elaborated.parameters.environment d.points
      = .ok s.elaborated.points := by
    rwa [environment_elaborated]
  rw [elaborate_eq hagain, elaborated_elaborated]
  exact congrArg (Outcome.succeed s.elaborated) (bindings_elaborated s)

/-- A run that supplies the mode of the pending sink; its second update fails. -/
def suppliedRun : List Operation :=
  [.update [("MODE", .text "NO_READY")], .update [("WIDTH", .number 0)]]

theorem elaborate_annotates_pendingSink :
    ∃ i, resolve pendingSink [] = .ok i ∧
      (i.run suppliedRun).elaborate.answer
        = .ok
          [ ⟨"In", "data width", "WIDTH", false, false⟩,
            ⟨"In", "handshake", "MODE", true, true⟩ ] ∧
      ∃ j bs, (i.run suppliedRun).elaborate = .succeed j bs ∧
        j.component = (i.run suppliedRun).component ∧ j.points = (i.run suppliedRun).points ∧
        j.parameters.unmarked = (i.run suppliedRun).parameters.unmarked ∧
        j.elaborate = .succeed j (bs.map Binding.reread) :=
  have resolved : resolve pendingSink [] = .ok _ := rfl
  ⟨_, resolved, rfl, elaborate_annotates resolved suppliedRun⟩

end Interface

end Interconnect
