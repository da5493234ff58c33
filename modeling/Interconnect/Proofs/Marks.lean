import Interconnect.Registry
import Interconnect.Proofs.Inversion

/-! # Marks of consumed parameters

An elaboration marks the parameters that it consumes. The marks are for display: neither
fields nor assignments see them. A table as it was declared has none, and a table that
was elaborated differs from what it was in its marks alone.
-/

namespace Interconnect

open Parameter (Overrides Table)

/-- A parameter as if no elaboration had read it. -/
def Parameter.unmarked (p : Parameter) : Parameter := { p with consumed := false }

theorem Parameter.unmarked_of_ofDeclaration {d : Parameter.Declaration} {p : Parameter}
    (h : Parameter.ofDeclaration d = .ok p) : p.unmarked = p := by
  unfold ofDeclaration at h
  split at h
  · cases h
  · dsimp only at h
    split at h
    · cases h; rfl
    · cases h
    · obtain ⟨v, -, rfl⟩ := map_eq_ok_iff.mp h; rfl

namespace Parameter.Table

/-- A table as if no elaboration had read it. -/
def unmarked (t : Table) : Table := ⟨t.entries.map fun e => (e.1, e.2.unmarked)⟩

@[simp] theorem get?_unmarked (t : Table) (name : String) :
    t.unmarked.get? name = (t.get? name).map Parameter.unmarked :=
  Dictionary.lookup_map_entries (fun e : String × Parameter => e.2.unmarked) t.entries name

@[simp] theorem environment_unmarked (t : Table) : t.unmarked.environment = t.environment := by
  ext name : 1
  rw [environment, environment, get?_unmarked, Option.map_map]
  rfl

theorem unmarked_modify {t : Table} {name : String} {f g : Parameter → Parameter}
    (h : ∀ p, (f p).unmarked = g p.unmarked) :
    unmarked (t.modify name f) = t.unmarked.modify name g := by
  unfold unmarked Dictionary.modify
  rw [List.map_map, List.map_map]
  apply congrArg Dictionary.mk
  apply List.map_congr_left
  intro e _
  by_cases he : e.1 = name <;> simp [he, h]

theorem update_unmarked (t : Table) (name : String) (raw : Scalar) :
    t.unmarked.update name raw = (t.update name raw).mapState unmarked := by
  unfold update
  rw [get?_unmarked]
  cases t.get? name with
  | none => rfl
  | some p =>
    have hkind : p.unmarked.kind = p.kind := rfl
    simp only [Option.map_some, hkind]
    cases p.kind.convert name raw with
    | error e => rfl
    | ok v =>
      have hassign : unmarked (t.modify name (·.assign v)) = t.unmarked.modify name (·.assign v) :=
        unmarked_modify fun _ => rfl
      simp only [Outcome.succeed, Outcome.mapState, hassign]

/-- Assignments change the same values whatever the marks are. -/
theorem applyOverrides_unmarked (t : Table) (overrides : Overrides) :
    t.unmarked.applyOverrides overrides = (t.applyOverrides overrides).mapState unmarked :=
  Outcome.forEach_mapState (fun t o => update_unmarked t o.1 o.2) t overrides

theorem unmarked_markConsumed (t : Table) (name : String) :
    (t.markConsumed name).state.unmarked = t.unmarked := by
  unfold markConsumed
  split
  · have hconsume : unmarked (t.modify name consume) = t.unmarked.modify name id :=
      unmarked_modify fun _ => rfl
    refine hconsume.trans ?_
    simp [Dictionary.modify]
  · rfl

theorem unmarked_add {t : Table} (h : t.unmarked = t) (d : Declaration) :
    (t.add d).state.unmarked = (t.add d).state := by
  unfold add
  by_cases hd : t.contains d.name
  · rw [if_pos hd]
    exact h
  · rw [if_neg hd]
    cases hp : ofDeclaration d with
    | error e => exact h
    | ok p =>
      have hinsert : t.insert d.name p = ⟨t.entries ++ [(d.name, p)]⟩ := if_neg hd
      have hentries : t.entries.map (fun e => (e.1, e.2.unmarked)) = t.entries :=
        congrArg Dictionary.entries h
      change unmarked (t.insert d.name p) = t.insert d.name p
      rw [hinsert, unmarked, List.map_append, hentries, List.map_singleton,
        unmarked_of_ofDeclaration hp]

theorem unmarked_of_ofDeclarations {ds : List Declaration} {t : Table}
    (h : ofDeclarations ds = .ok t) : t.unmarked = t := by
  obtain ⟨-, rfl⟩ := Outcome.toExcept_eq_ok_iff.mp h
  exact Outcome.forEach_preserves (P := fun t : Table => t.unmarked = t)
    (fun _ d ht => unmarked_add ht d) rfl ds

theorem unmarked_of_applyOverrides {t t' : Table} (ht : t.unmarked = t) {overrides : Overrides}
    (h : (t.applyOverrides overrides).toExcept = .ok t') : t'.unmarked = t' := by
  have hmap := applyOverrides_unmarked t overrides
  rw [ht] at hmap
  obtain ⟨-, rfl⟩ := Outcome.toExcept_eq_ok_iff.mp h
  exact (congrArg Outcome.state hmap).symm

end Parameter.Table

theorem Registry.unmarked_elaborate (r : Registry) (t : Table) :
    (r.elaborate t).state.2.unmarked = t.unmarked := by
  have hmarked (names : List String) :
      (Outcome.forEach Table.markConsumed t names).state.unmarked = t.unmarked :=
    Outcome.forEach_preserves (P := fun s : Table => s.unmarked = t.unmarked)
      (fun s name hs => (Table.unmarked_markConsumed s name).trans hs) rfl names
  simp only [elaborate]
  split
  · rfl
  · split <;> exact hmarked _

end Interconnect
