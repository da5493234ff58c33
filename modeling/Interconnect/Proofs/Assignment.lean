import Interconnect.Proofs.Replay

/-! # Assignments

A parameter is declared with a value of its kind. An assignment converts a written value to
that kind, or is refused and changes nothing. The kinds are therefore fixed, and every
parameter has a value of its kind. A derived parameter that was assigned is supplied, and
stays so. Along a run of an interface the parameters are the declared ones after the
assignments that took effect.
-/

namespace Interconnect

open Parameter (Overrides Table)

namespace Parameter

/-- The kind of the parameters that hold the value. -/
def Value.kind : Value → Kind
  | natural _ => .natural
  | boolean _ => .boolean
  | text _ => .text
  | absent => .heading

theorem Kind.kind_of_convert? {kind : Kind} {raw : Scalar} {v : Value}
    (h : kind.convert? raw = some v) : v.kind = kind := by
  unfold convert? at h
  split at h
  · cases h; rfl
  · simp only [Option.ite_none_right_eq_some, Option.map_eq_some_iff] at h
    obtain ⟨-, n, -, rfl⟩ := h
    rfl
  · cases h
  · cases h; rfl
  · split at h
    · cases h; rfl
    · obtain ⟨-, h⟩ := Option.ite_none_right_eq_some.mp h
      cases h; rfl
  · cases h; rfl
  · cases h; rfl
  · cases h

theorem kind_of_ofDeclaration {d : Declaration} {p : Parameter} (h : ofDeclaration d = .ok p) :
    p.value.kind = p.kind := by
  unfold ofDeclaration at h
  split at h
  · cases h
  · dsimp only at h
    split at h
    · cases h; rfl
    · cases h
    next kind raw _ _ =>
      obtain ⟨v, hv, rfl⟩ := map_eq_ok_iff.mp h
      unfold Kind.convert at hv
      split at hv
      next he => cases hv; exact Kind.kind_of_convert? he
      · cases hv

namespace Table

variable {t t' : Table} {name : String} {raw : Scalar} {overrides : Overrides}

theorem add_cases (t : Table) (d : Declaration) :
    (∃ p, d.name ∉ t.keys ∧ ofDeclaration d = .ok p ∧
      t.add d = .succeed (t.insert d.name p) ()) ∨
    ∃ e, t.add d = .fail t e := by
  unfold add
  by_cases hd : t.contains d.name
  · exact .inr ⟨_, if_pos hd⟩
  · have hfresh : d.name ∉ t.keys := mt Dictionary.contains_iff_mem_keys.mpr hd
    rw [if_neg hd]
    cases ofDeclaration d with
    | error e => exact .inr ⟨e, rfl⟩
    | ok p => exact .inl ⟨p, hfresh, rfl, rfl⟩

/-- An assignment converts the value to the kind of the parameter, or changes nothing. -/
theorem update_cases (t : Table) (name : String) (raw : Scalar) :
    (∃ p v, t.get? name = some p ∧ p.kind.convert? raw = some v ∧
      t.update name raw = .succeed (t.modify name (·.assign v)) ()) ∨
    ∃ e, t.update name raw = .fail t e := by
  unfold update
  cases hp : t.get? name with
  | none => exact .inr ⟨_, rfl⟩
  | some p =>
    cases hv : p.kind.convert? raw with
    | none => exact .inr ⟨_, by simp only [Kind.convert, hv]; rfl⟩
    | some v => exact .inl ⟨p, v, rfl, hv, by simp only [Kind.convert, hv]⟩

theorem update_eq_ok_iff : (t.update name raw).toExcept = .ok t' ↔
    ∃ p v, t.get? name = some p ∧ p.kind.convert? raw = some v ∧
      t' = t.modify name (·.assign v) := by
  unfold update
  cases t.get? name with
  | none => simp
  | some p => cases hv : p.kind.convert? raw <;> simp [Kind.convert, hv, eq_comm]

theorem exists_of_get?_update {other : String} {p' : Parameter}
    (h : (t.update name raw).state.get? other = some p') :
    ∃ p, t.get? other = some p ∧
      (p' = p ∨ other = name ∧ ∃ v, p.kind.convert? raw = some v ∧ p' = p.assign v) := by
  obtain ⟨q, v, hq, hv, hu⟩ | ⟨e, hu⟩ := update_cases t name raw
  · rw [hu, Outcome.succeed, Dictionary.get?_modify] at h
    obtain ⟨p, hp, rfl⟩ := Option.map_eq_some_iff.mp h
    refine ⟨p, hp, ?_⟩
    split
    next hn =>
      obtain rfl : q = p := Option.some.inj (hq.symm.trans (hn ▸ hp))
      exact .inr ⟨hn, v, hv, rfl⟩
    · exact .inl rfl
  · rw [hu] at h
    exact ⟨p', h, .inl rfl⟩

/-- The kind of the parameter of a name. -/
def kind? (t : Table) (name : String) : Option Kind := (t.get? name).map (·.kind)

/-- Every parameter has a value of its kind. -/
def WellTyped (t : Table) : Prop := ∀ name p, t.get? name = some p → p.value.kind = p.kind

/-- The parameter of the name does not wait for the host. -/
def Answered (t : Table) (name : String) : Prop :=
  ∀ p, t.get? name = some p → p.derived = true → p.supplied = true

theorem kind?_modify_assign (t : Table) (name : String) (v : Value) (other : String) :
    kind? (t.modify name (·.assign v)) other = t.kind? other := by
  rw [kind?, Dictionary.get?_modify, Option.map_map, kind?]
  refine Option.map_congr fun p _ => ?_
  by_cases hn : other = name <;> simp [hn, assign]

theorem kind?_update (t : Table) (name : String) (raw : Scalar) (other : String) :
    (t.update name raw).state.kind? other = t.kind? other := by
  obtain ⟨p, v, -, -, hu⟩ | ⟨e, hu⟩ := update_cases t name raw
  · rw [hu]
    exact kind?_modify_assign t name v other
  · rw [hu]
    rfl

theorem kind?_applyOverrides (t : Table) (overrides : Overrides) (name : String) :
    (t.applyOverrides overrides).state.kind? name = t.kind? name :=
  Outcome.forEach_preserves (P := fun s : Table => s.kind? name = t.kind? name)
    (fun s o hs => (kind?_update s o.1 o.2 name).trans hs) rfl overrides

theorem WellTyped.add (h : t.WellTyped) (d : Declaration) : (t.add d).state.WellTyped := by
  obtain ⟨p, hfresh, hp, ha⟩ | ⟨e, ha⟩ := add_cases t d
  · rw [ha]
    intro name q hq
    rw [Outcome.succeed, Dictionary.get?_insert_of_notMem hfresh] at hq
    split at hq
    · cases hq; exact kind_of_ofDeclaration hp
    · exact h name q hq
  · rw [ha]
    exact h

theorem WellTyped.update (h : t.WellTyped) (name : String) (raw : Scalar) :
    (t.update name raw).state.WellTyped := by
  intro other p' hp'
  obtain ⟨p, hp, rfl | ⟨-, v, hv, rfl⟩⟩ := exists_of_get?_update hp'
  · exact h other p' hp
  · exact Kind.kind_of_convert? hv

theorem wellTyped_of_ofDeclarations {ds : List Declaration} (h : ofDeclarations ds = .ok t) :
    t.WellTyped := by
  obtain ⟨-, rfl⟩ := Outcome.toExcept_eq_ok_iff.mp h
  have hempty : WellTyped {} := fun _ _ hp => nomatch hp
  exact Outcome.forEach_preserves (fun _ d ht => ht.add d) hempty ds

theorem WellTyped.applyOverrides (h : t.WellTyped) (overrides : Overrides) :
    (t.applyOverrides overrides).state.WellTyped :=
  Outcome.forEach_preserves (fun _ o ht => ht.update o.1 o.2) h overrides

theorem WellTyped.kind?_of_environment (h : t.WellTyped) {r : Reading}
    (hr : t.environment name = some r) : t.kind? name = some r.value.kind := by
  obtain ⟨p, hp, rfl⟩ := Option.map_eq_some_iff.mp hr
  rw [kind?, hp, Option.map_some, ← h name p hp]
  rfl

theorem Answered.update (h : t.Answered name) (other : String) (raw : Scalar) :
    (t.update other raw).state.Answered name := by
  intro p' hp' hd
  obtain ⟨p, hp, rfl | ⟨-, v, -, rfl⟩⟩ := exists_of_get?_update hp'
  · exact h p' hp hd
  · simp [assign, h p hp hd]

theorem answered_of_update (h : (t.update name raw).answer = .ok ()) :
    (t.update name raw).state.Answered name := by
  obtain ⟨p, v, -, -, hu⟩ | ⟨e, hu⟩ := update_cases t name raw
  · intro p' hp' hd
    rw [hu, Outcome.succeed, Dictionary.get?_modify] at hp'
    obtain ⟨q, -, rfl⟩ := Option.map_eq_some_iff.mp hp'
    rw [if_pos rfl] at hd ⊢
    have hderived : q.derived = true := hd
    simp [assign, hderived]
  · rw [hu] at h
    cases h

theorem Answered.applyOverrides (h : t.Answered name) (overrides : Overrides) :
    (t.applyOverrides overrides).state.Answered name :=
  Outcome.forEach_preserves (P := fun s : Table => s.Answered name)
    (fun _ o hs => hs.update o.1 o.2) h overrides

theorem answered_of_applyOverrides (h : (t.applyOverrides overrides).toExcept = .ok t')
    (hname : name ∈ overrides.map Prod.fst) : t'.Answered name := by
  induction overrides generalizing t with
  | nil => cases hname
  | cons o overrides ih =>
    rw [Table.applyOverrides, Outcome.forEach_cons] at h
    cases hok : (t.update o.1 o.2).answer with
    | error e => rw [hok] at h; cases h
    | ok =>
      rw [hok] at h
      rcases List.mem_cons.mp hname with rfl | hname
      · obtain ⟨-, rfl⟩ := Outcome.toExcept_eq_ok_iff.mp h
        exact (answered_of_update hok).applyOverrides overrides
      · exact ih h hname

@[simp] theorem kind?_unmarked (t : Table) (name : String) :
    t.unmarked.kind? name = t.kind? name := by
  rw [kind?, get?_unmarked, Option.map_map]
  rfl

theorem WellTyped.of_unmarked (h : t.unmarked.WellTyped) : t.WellTyped := fun name p hp =>
  h name p.unmarked (by rw [get?_unmarked, hp]; rfl)

theorem Answered.of_unmarked (h : t.unmarked.Answered name) : t.Answered name := fun p hp =>
  h p.unmarked (by rw [get?_unmarked, hp]; rfl)

end Table

end Parameter

namespace Interface

variable {d : Description} {host : Overrides} {i : Interface} {name : String}

/-- Along a run the parameters are the declared ones after the assignments that took
effect, but for the marks. -/
theorem exists_declared_of_run (h : resolve d host = .ok i) (ops : List Operation) :
    ∃ declared, Table.ofDeclarations d.parameters = .ok declared ∧
      (declared.applyOverrides (d.overrides ++ (host ++ i.applied ops))).toExcept
        = .ok (i.run ops).parameters.unmarked := by
  obtain ⟨declared, described, hdeclared, hdescribed, hparameters, -, -⟩ :=
    resolve_eq_ok_iff.mp (resolve_applied_unmarked (resolve_unmarked h) ops)
  refine ⟨declared, hdeclared, ?_⟩
  exact (Outcome.toExcept_forEach_append hdescribed _).trans hparameters

theorem wellTyped_run (h : resolve d host = .ok i) (ops : List Operation) :
    (i.run ops).parameters.WellTyped := by
  obtain ⟨declared, hdeclared, hrun⟩ := exists_declared_of_run h ops
  obtain ⟨-, hrun⟩ := Outcome.toExcept_eq_ok_iff.mp hrun
  refine Table.WellTyped.of_unmarked (hrun ▸ ?_)
  exact (Table.wellTyped_of_ofDeclarations hdeclared).applyOverrides _

theorem kind?_run (h : resolve d host = .ok i) (ops later : List Operation) (name : String) :
    (i.run (ops ++ later)).parameters.kind? name = (i.run ops).parameters.kind? name := by
  have hkind {declared : Table} (hdeclared : Table.ofDeclarations d.parameters = .ok declared)
      (ops : List Operation) : (i.run ops).parameters.kind? name = declared.kind? name := by
    obtain ⟨declared', hdeclared', hrun⟩ := exists_declared_of_run h ops
    obtain rfl := Except.ok.inj (hdeclared.symm.trans hdeclared')
    obtain ⟨-, hrun⟩ := Outcome.toExcept_eq_ok_iff.mp hrun
    rw [← Table.kind?_unmarked, ← hrun, Table.kind?_applyOverrides]
  obtain ⟨declared, hdeclared, -⟩ := exists_declared_of_run h ops
  rw [hkind hdeclared, hkind hdeclared]

theorem kind_eq_run (h : resolve d host = .ok i) {ops later : List Operation}
    {p p' : Parameter} (hp : (i.run ops).parameters.get? name = some p)
    (hp' : (i.run (ops ++ later)).parameters.get? name = some p') : p'.kind = p.kind := by
  have hkinds := kind?_run h ops later name
  rw [Table.kind?, Table.kind?, hp, hp'] at hkinds
  exact Option.some.inj hkinds

theorem applied_append (i : Interface) (ops later : List Operation) :
    i.applied (ops ++ later) = i.applied ops ++ (i.run ops).applied later := by
  induction ops generalizing i with
  | nil => rfl
  | cons op ops ih =>
    rw [List.cons_append, applied, applied, ih, List.append_assoc]
    rfl

theorem answered_run (h : resolve d host = .ok i) {ops : List Operation}
    (hname : name ∈ (d.overrides ++ host ++ i.applied ops).map Prod.fst)
    (later : List Operation) : (i.run (ops ++ later)).parameters.Answered name := by
  obtain ⟨declared, -, hrun⟩ := exists_declared_of_run h (ops ++ later)
  refine Table.Answered.of_unmarked (Table.answered_of_applyOverrides hrun ?_)
  simp only [applied_append, List.map_append, List.mem_append] at hname ⊢
  tauto

end Interface

end Interconnect
