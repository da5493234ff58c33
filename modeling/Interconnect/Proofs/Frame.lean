import Interconnect.Proofs.Assignment
import Interconnect.Proofs.History
import Interconnect.Proofs.Validity.Point
import Mathlib.Data.List.Nodup

/-! # The frame of an update

An update resolves every connection point again. Still it changes little: assignments reach
the parameters that they name, and a point that names none of these is resolved to what it
was. When all of the assigned parameters are flags, no computed width can change either, and
every field without a key keeps its value.
-/

namespace Interconnect

open Parameter (Environment Overrides Table Value)
open Point (Declaration)

@[simp] theorem Parameter.assign_assign (p : Parameter) (v w : Value) :
    (p.assign v).assign w = p.assign w := by
  simp [assign]

namespace Parameter.Table

variable {t : Table} {name : String} {overrides : Overrides}

theorem keys_update (t : Table) (name : String) (raw : Scalar) :
    (t.update name raw).state.keys = t.keys := by
  obtain ⟨p, v, -, -, hu⟩ | ⟨e, hu⟩ := update_cases t name raw
  · rw [hu]
    exact Dictionary.keys_modify t name _
  · rw [hu]
    rfl

theorem keys_applyOverrides (t : Table) (overrides : Overrides) :
    (t.applyOverrides overrides).state.keys = t.keys :=
  Outcome.forEach_preserves (P := fun s : Table => s.keys = t.keys)
    (fun s o hs => (keys_update s o.1 o.2).trans hs) rfl overrides

theorem get?_update_of_ne {other : String} (h : other ≠ name) (raw : Scalar) :
    (t.update name raw).state.get? other = t.get? other := by
  obtain ⟨p, v, -, -, hu⟩ | ⟨e, hu⟩ := update_cases t name raw
  · rw [hu, Outcome.succeed, Dictionary.get?_modify]
    simp [h]
  · rw [hu]
    rfl

theorem get?_applyOverrides_of_notMem (h : name ∉ overrides.map Prod.fst) :
    (t.applyOverrides overrides).state.get? name = t.get? name := by
  induction overrides generalizing t with
  | nil => rfl
  | cons o overrides ih =>
    rw [List.map_cons, List.mem_cons, not_or] at h
    have hstep : (t.update o.1 o.2).state.get? name = t.get? name := get?_update_of_ne h.1 o.2
    rw [applyOverrides, Outcome.forEach_cons]
    cases (t.update o.1 o.2).answer with
    | error e => exact hstep
    | ok => exact (ih h.2).trans hstep

theorem exists_assigned_of_applyOverrides {u : Table} {p : Parameter}
    (h : (t.applyOverrides overrides).toExcept = .ok u) (hname : name ∈ overrides.map Prod.fst)
    (hp : t.get? name = some p) : ∃ raw v, (name, raw) ∈ overrides ∧
      p.kind.convert? raw = some v ∧ u.get? name = some (p.assign v) := by
  induction overrides generalizing t p with
  | nil => cases hname
  | cons o overrides ih =>
    obtain ⟨s, hupdate, hrest⟩ := Outcome.toExcept_forEach_cons_eq_ok_iff.mp h
    obtain ⟨q, w, hq, hw, rfl⟩ := update_eq_ok_iff.mp hupdate
    have hget : Dictionary.get? (t.modify o.1 (·.assign w)) name
        = some (if name = o.1 then p.assign w else p) := by
      rw [Dictionary.get?_modify, hp, Option.map_some]
    by_cases hlater : name ∈ overrides.map Prod.fst
    · obtain ⟨raw, v, hmem, hv, hu⟩ := ih hrest hlater hget
      refine ⟨raw, v, List.mem_cons_of_mem o hmem, ?_⟩
      by_cases ho : name = o.1
      · rw [if_pos ho] at hv hu
        exact ⟨hv, by rw [hu, assign_assign]⟩
      · rw [if_neg ho] at hv hu
        exact ⟨hv, hu⟩
    · obtain rfl : name = o.1 := (List.mem_cons.mp hname).resolve_right hlater
      obtain rfl := Option.some.inj (hp.symm.trans hq)
      obtain ⟨-, rfl⟩ := Outcome.toExcept_eq_ok_iff.mp hrest
      refine ⟨o.2, w, List.mem_cons_self, hw, ?_⟩
      rw [← hget.trans (congrArg some (if_pos rfl))]
      exact get?_applyOverrides_of_notMem hlater

theorem environment_eq_of_get? {t' : Table} (h : t'.get? name = t.get? name) :
    t'.environment name = t.environment name := by
  rw [environment, environment, h]

end Parameter.Table

namespace Registry

variable {env env' : Environment} {ds : List Declaration} {r r' : Registry} {name : String}
  {p p' : Point}

theorem get?_eq_some_iff_of_ofDeclarations (h : ofDeclarations env ds = .ok r) :
    r.get? name = some p ↔
      ∃ b ∈ ds.flatMap Declaration.blueprints, b.Resolves env p ∧ b.name = name := by
  rw [Dictionary.get?_eq_some_iff (built_of_ofDeclarations h).nodup_keys]
  exact mem_entries_iff_of_ofDeclarations h

theorem blueprint_eq_of_name_eq (h : (ds.flatMap Declaration.names).Nodup) {b c : Blueprint}
    (hb : b ∈ ds.flatMap Declaration.blueprints) (hc : c ∈ ds.flatMap Declaration.blueprints)
    (hname : b.name = c.name) : b = c := by
  have hnames : (ds.flatMap Declaration.blueprints).map Blueprint.name
      = ds.flatMap Declaration.names := by
    rw [List.map_flatMap]
    simp only [Declaration.map_name_blueprints]
  exact List.inj_on_of_nodup_map (hnames ▸ h) hb hc hname

theorem exists_blueprint_of_get? (hr : ofDeclarations env ds = .ok r)
    (hr' : ofDeclarations env' ds = .ok r') (hp : r.get? name = some p)
    (hp' : r'.get? name = some p') : ∃ b : Blueprint, b.Resolves env p ∧ b.Resolves env' p' := by
  obtain ⟨b, hb, hresolves, hname⟩ := (get?_eq_some_iff_of_ofDeclarations hr).mp hp
  obtain ⟨c, hc, hresolves', hname'⟩ := (get?_eq_some_iff_of_ofDeclarations hr').mp hp'
  obtain rfl := blueprint_eq_of_name_eq (built_of_ofDeclarations hr).nodup hb hc
    (hname.trans hname'.symm)
  exact ⟨b, hresolves, hresolves'⟩

end Registry

theorem Blueprint.Resolves.eq_of_agreeOn {env env' : Environment} {b : Blueprint} {p p' : Point}
    (h : b.Resolves env p) (h' : b.Resolves env' p') (hagree : AgreeOn p.symbolicFields env env') :
    p' = p := by
  rw [h.symbolicFields_eq] at hagree
  rw [← resolve_eq_ok_iff] at h h'
  rw [resolve_congr hagree, h'] at h
  exact Except.ok.inj h

/-- Where every number that could be read is still the same, a field without a key keeps its
value, also when it is computed from a number. -/
theorem Origin.Yields.eq_of_keepsNumbers {env env' : Environment} {o : Origin} {f f' : Field}
    (hkeep : ∀ name r n, env name = some r → r.value = .natural n → env' name = some r)
    (h : Yields env o f) (h' : Yields env' o f') (hk : f.key = none) : f' = f := by
  by_cases hc : o.IsComputed
  · cases h with
    | number | flag => exact hc.elim
    | computed h =>
      cases h' with
      | computed h' =>
        cases h with
        | literal => cases h'; rfl
        | @symbol name r v hr hv =>
          have hr' := hkeep name r v hr (Value.natural?_eq_some_iff.mp hv)
          cases h' with
          | symbol hq hw =>
            obtain rfl := Option.some.inj (hr'.symm.trans hq)
            obtain rfl := Option.some.inj (hv.symm.trans hw)
            rfl
  · exact (h.eq_of_key_eq_none h' hc hk).symm

namespace Interface

/-- What an update with the overrides leaves alone, in an interface and the one after it. -/
structure Frame (overrides : Overrides) (i j : Interface) : Prop where
  component : j.component = i.component
  parameterKeys : j.parameters.keys = i.parameters.keys
  pointKeys : j.points.keys = i.points.keys
  unnamed : ∀ name, name ∉ overrides.map Prod.fst →
    j.parameters.get? name = i.parameters.get? name
  named : ∀ name p, name ∈ overrides.map Prod.fst → i.parameters.get? name = some p →
    ∃ raw v, (name, raw) ∈ overrides ∧ p.kind.convert? raw = some v ∧
      j.parameters.get? name = some { p with value := v, supplied := p.supplied || p.derived }
  independent : ∀ name p p', i.points.get? name = some p → j.points.get? name = some p' →
    (∀ s ∈ p.symbolicFields, s.2 ∉ overrides.map Prod.fst) → p' = p
  unkeyed : (∀ name ∈ overrides.map Prod.fst, i.parameters.kind? name = some .boolean) →
    ∀ name p p', i.points.get? name = some p → j.points.get? name = some p' →
      List.Forall₂ (fun f f' => f.key = none → f' = f) p.fields p'.fields

variable {d : Description} {host overrides : Overrides} {i : Interface}

/-- In every state of a run an update that succeeds changes nothing outside its frame. -/
theorem update_frame (h : resolve d host = .ok i) (ops : List Operation)
    (hok : ((i.run ops).update overrides).answer = .ok ()) :
    Frame overrides (i.run ops) ((i.run ops).update overrides).state := by
  have hpoints := ofDeclarations_run h ops
  have htyped := wellTyped_run h ops
  generalize i.run ops = s at hpoints htyped hok ⊢
  obtain ⟨t, r, ht, hr, hstate⟩ := update_of_ok hok
  obtain ⟨-, rfl⟩ := Outcome.toExcept_eq_ok_iff.mp ht
  have hbuilt : Registry.Built s.points d.points := Registry.built_of_ofDeclarations hpoints
  rw [hbuilt.toExcept_refresh] at hr
  have hunnamed : ∀ name, name ∉ overrides.map Prod.fst →
      (s.parameters.applyOverrides overrides).state.get? name = s.parameters.get? name :=
    fun _ hname => Table.get?_applyOverrides_of_notMem hname
  rw [hstate]
  constructor
  case component => rfl
  case parameterKeys => exact Table.keys_applyOverrides s.parameters overrides
  case pointKeys =>
    exact (Registry.built_of_ofDeclarations hr).keys_eq.trans hbuilt.keys_eq.symm
  case unnamed => exact hunnamed
  case named => exact fun _ _ hname hp => Table.exists_assigned_of_applyOverrides ht hname hp
  case independent =>
    intro name p p' hp hp' hs
    obtain ⟨b, hresolves, hresolves'⟩ := Registry.exists_blueprint_of_get? hpoints hr hp hp'
    refine hresolves.eq_of_agreeOn hresolves' fun f hf => ?_
    exact (Table.environment_eq_of_get? (hunnamed f.2 (hs f hf))).symm
  case unkeyed =>
    intro hboolean name p p' hp hp'
    obtain ⟨b, hresolves, hresolves'⟩ := Registry.exists_blueprint_of_get? hpoints hr hp hp'
    refine forall₂_of_common hresolves.yields hresolves'.yields fun _ _ _ _ hf hf' hk => ?_
    refine hf.eq_of_keepsNumbers (fun key reading n hreading hn => ?_) hf' hk
    have hkey : key ∉ overrides.map Prod.fst := by
      intro hmem
      have hkind := htyped.kind?_of_environment hreading
      rw [hboolean key hmem, hn] at hkind
      cases hkind
    rw [Table.environment_eq_of_get? (hunnamed key hkey), hreading]

/-- A master whose burst width is computed, beside a sink. -/
def burstMaster : Description where
  component := Showcase.component
  parameters :=
    [ Showcase.natural "COUNT" 4, { Showcase.flag "WRAP" true with derived := true },
      Showcase.natural "WIDTH" 32, Showcase.text "MODE" "NO_READY" ]
  points := [.master Point.exampleMaster, .sink Point.exampleSink]
  overrides := []

theorem update_frame_burstMaster :
    ∃ i, resolve burstMaster [("COUNT", .number 100)] = .ok i ∧
      ((i.run [.elaborate]).update [("WRAP", .flag false)]).answer = .ok () ∧
      (i.run [.elaborate]).parameters.kind? "WRAP" = some .boolean ∧
      Frame [("WRAP", .flag false)] (i.run [.elaborate])
        ((i.run [.elaborate]).update [("WRAP", .flag false)]).state :=
  have resolved : resolve burstMaster [("COUNT", .number 100)] = .ok _ := rfl
  ⟨_, resolved, rfl, rfl, update_frame resolved [.elaborate] rfl⟩

end Interface

end Interconnect
