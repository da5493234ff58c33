import Interconnect.Proofs.Frame
import Interconnect.Proofs.Monotone
import Mathlib.Data.List.Perm.Basic

/-! # The order of declarations

A table or a registry is built in one pass, which stops at the first fault. Whether the pass
succeeds depends only on which declarations there are: their names must be distinct, and
each must be well formed. A description whose declarations are reordered therefore resolves
to the same parameters and the same points. Only their order differs, and it is that of the
declarations.
-/

namespace Interconnect

open Parameter (Overrides Table)

namespace Parameter.Table

variable {t t' u : Table} {d : Declaration} {ds ds' : List Declaration} {name : String}
  {overrides : Overrides}

theorem add_eq_ok_iff : (t.add d).toExcept = .ok u ↔
    d.name ∉ t.keys ∧ ∃ p, ofDeclaration d = .ok p ∧ u = ⟨t.entries ++ [(d.name, p)]⟩ := by
  unfold add
  rw [← Dictionary.contains_iff_mem_keys]
  by_cases hd : t.contains d.name
  · simp [hd]
  · have hfresh : d.name ∉ t.keys := mt Dictionary.contains_iff_mem_keys.mpr hd
    rw [if_neg hd]
    cases ofDeclaration d with
    | error e => simp
    | ok p => simp [hd, Dictionary.insert_of_notMem hfresh, eq_comm]

theorem forEach_add_eq_ok_iff : (Outcome.forEach add t ds).toExcept = .ok u ↔
    ((∀ name ∈ ds.map (·.name), name ∉ t.keys) ∧ (ds.map (·.name)).Nodup) ∧
      ∃ es, List.Forall₂ (fun d e => e.1 = d.name ∧ ofDeclaration d = .ok e.2) ds es ∧
        u = ⟨t.entries ++ es⟩ := by
  induction ds generalizing t with
  | nil => simp [eq_comm]
  | cons d ds ih =>
    rw [Outcome.toExcept_forEach_cons_eq_ok_iff, List.map_cons, List.forall_mem_cons,
      List.nodup_cons]
    constructor
    · rintro ⟨s, hadd, hrest⟩
      obtain ⟨hd, p, hp, rfl⟩ := add_eq_ok_iff.mp hadd
      obtain ⟨⟨hfresh, hnodup⟩, es, hes, rfl⟩ := ih.mp hrest
      have hkeys : ∀ name ∈ ds.map (·.name), name ∉ t.keys ∧ name ≠ d.name := by
        simpa [Dictionary.keys] using hfresh
      refine ⟨⟨⟨hd, fun name hname => (hkeys name hname).1⟩,
        fun hname => (hkeys _ hname).2 rfl, hnodup⟩, (d.name, p) :: es, .cons ⟨rfl, hp⟩ hes, ?_⟩
      simp
    · rintro ⟨⟨⟨hd, hfresh⟩, hname, hnodup⟩, es, hes, rfl⟩
      cases hes with
      | @cons _ e _ es he hes =>
        obtain ⟨key, p⟩ := e
        obtain ⟨rfl, hp⟩ : key = d.name ∧ ofDeclaration d = .ok p := he
        refine ⟨_, add_eq_ok_iff.mpr ⟨hd, p, hp, rfl⟩, ih.mpr ⟨⟨?_, hnodup⟩, es, hes, by simp⟩⟩
        intro name hmem
        have hne : name ≠ d.name := fun he => hname (he ▸ hmem)
        simpa [Dictionary.keys, hne] using hfresh name hmem

/-- A table is that of a list of declarations when their names are distinct and its entries
are their parameters, in order. -/
theorem ofDeclarations_eq_ok_iff : ofDeclarations ds = .ok t ↔ (ds.map (·.name)).Nodup ∧
    List.Forall₂ (fun d e => e.1 = d.name ∧ ofDeclaration d = .ok e.2) ds t.entries := by
  rw [ofDeclarations, forEach_add_eq_ok_iff]
  constructor
  · rintro ⟨⟨-, hnodup⟩, es, hes, rfl⟩
    exact ⟨hnodup, hes⟩
  · rintro ⟨hnodup, hes⟩
    exact ⟨⟨fun _ _ => List.not_mem_nil, hnodup⟩, t.entries, hes, rfl⟩

theorem keys_of_ofDeclarations (h : ofDeclarations ds = .ok t) : t.keys = ds.map (·.name) :=
  map_eq_of_forall₂ (ofDeclarations_eq_ok_iff.mp h).2 fun _ _ he => he.1

theorem exists_ofDeclarations_iff : (∃ t, ofDeclarations ds = .ok t) ↔
    (ds.map (·.name)).Nodup ∧ ∀ d ∈ ds, ∃ p, ofDeclaration d = .ok p := by
  have hentry (d : Declaration) : (∃ e : String × Parameter,
      e.1 = d.name ∧ ofDeclaration d = .ok e.2) ↔ ∃ p, ofDeclaration d = .ok p :=
    ⟨fun ⟨e, he⟩ => ⟨e.2, he.2⟩, fun ⟨p, hp⟩ => ⟨(d.name, p), rfl, hp⟩⟩
  rw [← exists_forall₂_iff hentry]
  simp only [ofDeclarations_eq_ok_iff, exists_and_left]
  exact and_congr_right fun _ => ⟨fun ⟨t, ht⟩ => ⟨t.entries, ht⟩, fun ⟨es, hes⟩ => ⟨⟨es⟩, hes⟩⟩

theorem get?_eq_some_iff_of_ofDeclarations (h : ofDeclarations ds = .ok t) {p : Parameter} :
    t.get? name = some p ↔ ∃ d ∈ ds, d.name = name ∧ ofDeclaration d = .ok p := by
  obtain ⟨hnodup, hentries⟩ := ofDeclarations_eq_ok_iff.mp h
  rw [Dictionary.get?_eq_some_iff (keys_of_ofDeclarations h ▸ hnodup)]
  constructor
  · intro hp
    obtain ⟨d, hd, he, hp⟩ := exists_mem_of_forall₂ hentries hp
    exact ⟨d, hd, he.symm, hp⟩
  · rintro ⟨d, hd, rfl, hp⟩
    obtain ⟨⟨key, q⟩, hmem, rfl, hq⟩ := exists_mem_of_forall₂ hentries.flip hd
    obtain rfl := Except.ok.inj (hp.symm.trans hq)
    exact hmem

theorem exists_ofDeclarations_of_perm (hperm : ds.Perm ds') (h : ofDeclarations ds = .ok t) :
    ∃ t', ofDeclarations ds' = .ok t' ∧ ∀ name, t'.get? name = t.get? name := by
  obtain ⟨hnodup, hvalid⟩ := exists_ofDeclarations_iff.mp ⟨t, h⟩
  obtain ⟨t', h'⟩ := exists_ofDeclarations_iff.mpr
    ⟨(hperm.map _).nodup_iff.mp hnodup, fun d hd => hvalid d (hperm.mem_iff.mpr hd)⟩
  refine ⟨t', h', fun name => Option.ext fun p => ?_⟩
  rw [get?_eq_some_iff_of_ofDeclarations h, get?_eq_some_iff_of_ofDeclarations h']
  simp only [hperm.mem_iff]

/-- Assignments see the parameters by name, so their order does not matter. -/
theorem exists_applyOverrides_of_get?_eq (hget : ∀ name, t'.get? name = t.get? name)
    (h : (t.applyOverrides overrides).toExcept = .ok u) :
    ∃ u', (t'.applyOverrides overrides).toExcept = .ok u' ∧
      ∀ name, u'.get? name = u.get? name := by
  induction overrides generalizing t t' with
  | nil =>
    cases h
    exact ⟨t', rfl, hget⟩
  | cons o overrides ih =>
    obtain ⟨s, hupdate, hrest⟩ := Outcome.toExcept_forEach_cons_eq_ok_iff.mp h
    obtain ⟨p, v, hp, hv, rfl⟩ := update_eq_ok_iff.mp hupdate
    have hupdate' : (t'.update o.1 o.2).toExcept = .ok (t'.modify o.1 (·.assign v)) :=
      update_eq_ok_iff.mpr ⟨p, v, (hget o.1).trans hp, hv, rfl⟩
    have hmodify : ∀ name, (t'.modify o.1 (·.assign v)).get? name
        = (t.modify o.1 (·.assign v)).get? name := by
      intro name
      rw [Dictionary.get?_modify, Dictionary.get?_modify, hget]
    obtain ⟨u', hu', hget'⟩ := ih hmodify hrest
    exact ⟨u', Outcome.toExcept_forEach_cons_eq_ok_iff.mpr ⟨_, hupdate', hu'⟩, hget'⟩

end Parameter.Table

theorem Registry.exists_ofDeclarations_of_perm {t : Table} {ds ds' : List Point.Declaration}
    {r : Registry} (hperm : ds.Perm ds') (h : ofDeclarations t.environment ds = .ok r) :
    ∃ r', ofDeclarations t.environment ds' = .ok r' ∧ ∀ name, r'.get? name = r.get? name := by
  have hnodup : (ds.flatMap Point.Declaration.names).Nodup := (built_of_ofDeclarations h).nodup
  have hvalid := (exists_ofDeclarations_iff hnodup).mp ⟨r, h⟩
  have hblueprints := hperm.flatMap_right Point.Declaration.blueprints
  have hnodup' := (hperm.flatMap_right Point.Declaration.names).nodup_iff.mp hnodup
  obtain ⟨r', h'⟩ := (exists_ofDeclarations_iff hnodup').mpr fun b hb =>
    hvalid b (hblueprints.mem_iff.mpr hb)
  refine ⟨r', h', fun name => Option.ext fun p => ?_⟩
  rw [get?_eq_some_iff_of_ofDeclarations h, get?_eq_some_iff_of_ofDeclarations h']
  simp only [hblueprints.mem_iff]

namespace Description

/-- The same description with its declarations in another order. -/
structure Reordered (d d' : Description) : Prop where
  component : d'.component = d.component
  parameters : d.parameters.Perm d'.parameters
  points : d.points.Perm d'.points
  overrides : d'.overrides = d.overrides

theorem Reordered.symm {d d' : Description} (h : d.Reordered d') : d'.Reordered d :=
  ⟨h.component.symm, h.parameters.symm, h.points.symm, h.overrides.symm⟩

end Description

namespace Interface

variable {d d' : Description} {host : Overrides} {i : Interface}

/-- The same parameters and points by name. -/
structure SameByName (i j : Interface) : Prop where
  component : j.component = i.component
  parameters : ∀ name, j.parameters.get? name = i.parameters.get? name
  points : ∀ name, j.points.get? name = i.points.get? name

theorem keys_of_resolve (h : resolve d host = .ok i) :
    i.parameters.keys = d.parameters.map (·.name) ∧
      i.points.keys = d.points.flatMap Point.Declaration.names := by
  obtain ⟨declared, described, hdeclared, hdescribed, hparameters, hpoints, -⟩ :=
    resolve_eq_ok_iff.mp h
  obtain ⟨-, rfl⟩ := Outcome.toExcept_eq_ok_iff.mp hdescribed
  obtain ⟨-, hparameters⟩ := Outcome.toExcept_eq_ok_iff.mp hparameters
  refine ⟨?_, (Registry.built_of_ofDeclarations hpoints).keys_eq⟩
  rw [← hparameters, Table.keys_applyOverrides, Table.keys_applyOverrides,
    Table.keys_of_ofDeclarations hdeclared]

theorem exists_interface_showcase :
    ∃ i, Showcase.interface [] = .ok i ∧
      i.parameters.keys = Showcase.description.parameters.map (·.name) ∧
      i.points.keys = Showcase.description.points.flatMap Point.Declaration.names := by
  have hresolves : (Showcase.interface []).isOk := by decide +kernel
  cases hi : Showcase.interface [] with
  | error e => rw [hi] at hresolves; cases hresolves
  | ok i => exact ⟨i, rfl, keys_of_resolve hi⟩

theorem exists_resolve_of_reordered (hd : d.Reordered d') (h : resolve d host = .ok i) :
    ∃ j, resolve d' host = .ok j ∧ SameByName i j := by
  obtain ⟨declared, described, hdeclared, hdescribed, hparameters, hpoints, hcomponent⟩ :=
    resolve_eq_ok_iff.mp h
  obtain ⟨declared', hdeclared', hget⟩ :=
    Table.exists_ofDeclarations_of_perm hd.parameters hdeclared
  obtain ⟨described', hdescribed', hget⟩ :=
    Table.exists_applyOverrides_of_get?_eq hget (hd.overrides ▸ hdescribed)
  obtain ⟨t, ht, hget⟩ := Table.exists_applyOverrides_of_get?_eq hget hparameters
  have henvironment : t.environment = i.parameters.environment :=
    funext fun name => Table.environment_eq_of_get? (hget name)
  obtain ⟨r, hr, hsame⟩ := Registry.exists_ofDeclarations_of_perm hd.points hpoints
  rw [← henvironment] at hr
  refine ⟨⟨d'.component, t, r⟩, resolve_eq_ok_iff.mpr ?_, ?_⟩
  · exact ⟨declared', described', hdeclared', hdescribed', ht, hr, rfl⟩
  · exact ⟨hd.component.trans hcomponent, hget, hsame⟩

/-- Reordered declarations resolve exactly when they did before, to the same parameters and
points by name, in the order that the declarations have now. -/
theorem resolve_reordered (hd : d.Reordered d') (host : Overrides) :
    ((∃ j, resolve d' host = .ok j) ↔ ∃ i, resolve d host = .ok i) ∧
      ∀ i j, resolve d host = .ok i → resolve d' host = .ok j → SameByName i j ∧
        j.parameters.keys = d'.parameters.map (·.name) ∧
        j.points.keys = d'.points.flatMap Point.Declaration.names := by
  constructor
  · constructor
    · rintro ⟨j, hj⟩
      obtain ⟨i, hi, -⟩ := exists_resolve_of_reordered hd.symm hj
      exact ⟨i, hi⟩
    · rintro ⟨i, hi⟩
      obtain ⟨j, hj, -⟩ := exists_resolve_of_reordered hd hi
      exact ⟨j, hj⟩
  · intro i j hi hj
    obtain ⟨j', hj', hsame⟩ := exists_resolve_of_reordered hd hi
    obtain rfl := Except.ok.inj (hj.symm.trans hj')
    exact ⟨hsame, keys_of_resolve hj⟩

/-- The sink before the master, and the parameters from the last to the first. -/
def reorderedMaster : Description :=
  { burstMaster with
    parameters := burstMaster.parameters.reverse
    points := [.sink Point.exampleSink, .master Point.exampleMaster] }

theorem resolve_reordered_burstMaster :
    burstMaster.Reordered reorderedMaster ∧
      (∃ i, resolve burstMaster [("COUNT", .number 100)] = .ok i) ∧
      (((∃ j, resolve reorderedMaster [("COUNT", .number 100)] = .ok j) ↔
          ∃ i, resolve burstMaster [("COUNT", .number 100)] = .ok i) ∧
        ∀ i j, resolve burstMaster [("COUNT", .number 100)] = .ok i →
          resolve reorderedMaster [("COUNT", .number 100)] = .ok j → SameByName i j ∧
            j.parameters.keys = reorderedMaster.parameters.map (·.name) ∧
            j.points.keys = reorderedMaster.points.flatMap Point.Declaration.names) :=
  have reordered : burstMaster.Reordered reorderedMaster :=
    ⟨rfl, (List.reverse_perm _).symm, .swap .., rfl⟩
  have resolved : resolve burstMaster [("COUNT", .number 100)] = .ok _ := rfl
  ⟨reordered, ⟨_, resolved⟩, resolve_reordered reordered [("COUNT", .number 100)]⟩

end Interface

end Interconnect
