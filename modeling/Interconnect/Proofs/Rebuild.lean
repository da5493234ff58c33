import Interconnect.Proofs.Blueprint

/-! # Refreshing and rebuilding registries

A registry built from declarations holds one entry for each of their blueprints, in
order. The points may have been resolved against different parameters. A refresh
resolves every blueprint again, and so it is a rebuild from the declarations.
-/

namespace Interconnect

open Parameter (Environment Table)
open Point (Declaration Error)

/-- The entry of a blueprint in a registry. -/
def Blueprint.entry (env : Environment) (b : Blueprint) : Except Error (String × Point) :=
  (b.resolve env).map (b.name, ·)

theorem Blueprint.entry_eq_ok_iff {env : Environment} {b : Blueprint} {e : String × Point} :
    b.entry env = .ok e ↔ b.Resolves env e.2 ∧ b.name = e.1 := by
  obtain ⟨name, p⟩ := e
  rw [entry, map_eq_ok_iff, ← resolve_eq_ok_iff]
  constructor
  · rintro ⟨q, hq, he⟩
    cases he
    exact ⟨hq, rfl⟩
  · rintro ⟨hq, rfl⟩
    exact ⟨p, hq, rfl⟩

theorem Blueprint.mapM_entry (env : Environment) (bs : List Blueprint) :
    bs.mapM (entry env) = (bs.mapM (resolve env)).map (List.map fun p => (p.name, p)) := by
  induction bs with
  | nil => rfl
  | cons b bs ih =>
    rw [List.mapM_cons, List.mapM_cons, ih, entry]
    cases hb : b.resolve env with
    | error => rfl
    | ok p =>
      have hname : p.name = b.name := (resolve_eq_ok_iff.mp hb).name_eq
      cases bs.mapM (resolve env) with
      | error => rfl
      | ok ps => simp [Except.map, bind, Except.bind, pure, Except.pure, hname]

theorem Dictionary.insert_of_notMem {α : Type} {d : Dictionary α} {name : String}
    (h : name ∉ d.keys) (value : α) : d.insert name value = ⟨d.entries ++ [(name, value)]⟩ :=
  if_neg (mt contains_iff_mem_keys.mp h)

theorem Dictionary.get?_of_notMem {α : Type} {d : Dictionary α} {name : String}
    (h : name ∉ d.keys) : d.get? name = none := by
  simpa [contains] using mt contains_iff_mem_keys.mp h

theorem Dictionary.get?_insert_of_notMem {α : Type} {d : Dictionary α} {name : String}
    (h : name ∉ d.keys) (value : α) (other : String) :
    (d.insert name value).get? other = if other = name then some value else d.get? other := by
  rw [insert_of_notMem h, get?, List.lookup_append, ← get?]
  by_cases ho : other = name
  · simp [ho, get?_of_notMem h]
  · have hne : (other == name) = false := beq_false_of_ne ho
    simp [ho, hne, List.lookup_cons]

theorem Dictionary.mem_entries_of_get? {α : Type} {d : Dictionary α} {name : String} {value : α}
    (h : d.get? name = some value) : (name, value) ∈ d.entries := by
  obtain ⟨before, after, he, -⟩ := List.lookup_eq_some_iff.mp h
  simp [he]

namespace Registry

variable {env : Environment} {r : Registry} {d : Declaration} {ds : List Declaration}

theorem firstTaken_eq_none_iff {taken names : List String} :
    firstTaken taken names = none ↔ (∀ name ∈ names, name ∉ taken) ∧ names.Nodup := by
  induction names generalizing taken with
  | nil => simp [firstTaken]
  | cons name names ih =>
    rw [firstTaken]
    by_cases h : name ∈ taken
    · simp [h]
    · rw [if_neg h, ih, List.nodup_cons, List.forall_mem_cons]
      constructor
      · rintro ⟨hfresh, hnodup⟩
        exact ⟨⟨h, fun n hn ht => hfresh n hn (List.mem_cons_of_mem _ ht)⟩,
          fun hn => hfresh name hn List.mem_cons_self, hnodup⟩
      · rintro ⟨⟨-, hfresh⟩, hname, hnodup⟩
        refine ⟨fun n hn ht => ?_, hnodup⟩
        rcases List.mem_cons.mp ht with rfl | ht
        · exact hname hn
        · exact hfresh n hn ht

theorem addAll_eq {points : List Point} (hn : (points.map Point.name).Nodup)
    (h : ∀ name ∈ points.map Point.name, name ∉ r.keys) :
    r.addAll points = ⟨r.entries ++ points.map fun p => (p.name, p)⟩ := by
  induction points generalizing r with
  | nil => simp [addAll]
  | cons p points ih =>
    rw [List.map_cons, List.nodup_cons] at hn
    rw [List.map_cons, List.forall_mem_cons] at h
    have hinsert : r.insert p.name p = ⟨r.entries ++ [(p.name, p)]⟩ :=
      Dictionary.insert_of_notMem h.1 p
    have hfresh : ∀ name ∈ points.map Point.name, name ∉ (r.insert p.name p).keys := by
      intro name hm
      rw [Dictionary.keys_insert, if_neg h.1, List.mem_append, List.mem_singleton, not_or]
      exact ⟨h.2 name hm, fun he => hn.1 (he ▸ hm)⟩
    change addAll (r.insert p.name p) points = _
    rw [ih hn.2 hfresh, hinsert, List.map_cons, List.append_assoc, List.singleton_append]

theorem state_register_of_error {e : Error} (h : (r.register env d).answer = .error e) :
    (r.register env d).state = r := by
  unfold register at h ⊢
  split
  · rfl
  · split <;> simp_all [Outcome.succeed, Outcome.fail]

theorem map_fst_of_mapM_entry {es : List (String × Point)}
    (h : d.blueprints.mapM (Blueprint.entry env) = .ok es) : es.map Prod.fst = d.names := by
  rw [← d.map_name_blueprints]
  exact map_eq_of_forall₂ (mapM_eq_ok_iff.mp h) fun _ _ he =>
    (Blueprint.entry_eq_ok_iff.mp he).2.symm

/-- A declaration with new names registers the entries of its blueprints, all or none. -/
theorem register_eq (hn : d.names.Nodup) (h : ∀ name ∈ d.names, name ∉ r.keys) :
    r.register env d = .commit r
      ((d.blueprints.mapM (Blueprint.entry env)).map fun es => (⟨r.entries ++ es⟩, ())) := by
  have htaken : firstTaken r.keys d.names = none := firstTaken_eq_none_iff.mpr ⟨h, hn⟩
  simp only [register, htaken, Point.ofDeclaration_eq, Blueprint.mapM_entry]
  cases hps : d.blueprints.mapM (Blueprint.resolve env) with
  | error => rfl
  | ok ps =>
    have hnames : ps.map Point.name = d.names := by
      rw [← d.map_name_blueprints]
      exact map_eq_of_forall₂ (mapM_eq_ok_iff.mp hps) fun _ _ hp =>
        (Blueprint.resolve_eq_ok_iff.mp hp).name_eq
    have hpoints := addAll_eq (hnames ▸ hn) (hnames ▸ h)
    simp only [hpoints, Outcome.commit, Except.map]

theorem register_of_taken {name : String} (h : firstTaken r.keys d.names = some name) :
    r.register env d = .fail r (.duplicateName name) := by
  simp only [register, h]

theorem exists_of_register_ok (hok : (r.register env d).answer = .ok ()) :
    d.names.Nodup ∧ (∀ name ∈ d.names, name ∉ r.keys) ∧
      ∃ es, List.Forall₂ (fun b e => Blueprint.entry env b = .ok e) d.blueprints es ∧
        (r.register env d).state = ⟨r.entries ++ es⟩ := by
  cases htaken : firstTaken r.keys d.names with
  | some name => rw [register_of_taken htaken] at hok; cases hok
  | none =>
    obtain ⟨hfresh, hn⟩ := firstTaken_eq_none_iff.mp htaken
    rw [register_eq hn hfresh] at hok ⊢
    cases hes : d.blueprints.mapM (Blueprint.entry env) with
    | error e => rw [hes] at hok; cases hok
    | ok es => exact ⟨hn, hfresh, es, mapM_eq_ok_iff.mp hes, rfl⟩

theorem exists_resolves_of_register {name : String} {p : Point}
    (hok : (r.register env d).answer = .ok ()) (hname : name ∈ d.names)
    (hp : (r.register env d).state.get? name = some p) :
    ∃ b ∈ d.blueprints, Blueprint.Resolves env b p := by
  obtain ⟨-, hfresh, es, hes, hstate⟩ := exists_of_register_ok hok
  rw [hstate] at hp
  have hmem : (name, p) ∈ r.entries ++ es := Dictionary.mem_entries_of_get? hp
  rcases List.mem_append.mp hmem with hold | hnew
  · exact absurd (List.mem_map_of_mem hold) (hfresh name hname)
  · obtain ⟨b, hb, he⟩ := exists_mem_of_forall₂ hes hnew
    exact ⟨b, hb, (Blueprint.entry_eq_ok_iff.mp he).1⟩

/-- The entries of a registry are those of the blueprints of its declarations, in order,
each resolved against some parameters. -/
structure Built (r : Registry) (ds : List Declaration) : Prop where
  nodup : (ds.flatMap Declaration.names).Nodup
  entries : List.Forall₂ (fun b e => ∃ env, Blueprint.entry env b = .ok e)
    (ds.flatMap Declaration.blueprints) r.entries

namespace Built

theorem nil : Built {} [] := ⟨.nil, .nil⟩

theorem keys_eq (h : Built r ds) : r.keys = ds.flatMap Declaration.names := by
  have hkeys : r.keys = (ds.flatMap Declaration.blueprints).map Blueprint.name :=
    map_eq_of_forall₂ h.entries fun _ _ ⟨_, he⟩ => (Blueprint.entry_eq_ok_iff.mp he).2.symm
  rw [hkeys, List.map_flatMap]
  simp only [Declaration.map_name_blueprints]

theorem nodup_keys (h : Built r ds) : r.keys.Nodup := h.keys_eq ▸ h.nodup

theorem register (h : Built r ds) (hok : (r.register env d).answer = .ok ()) :
    Built (r.register env d).state (ds ++ [d]) := by
  obtain ⟨hn, hfresh, es, hes, hstate⟩ := exists_of_register_ok hok
  have hadded : List.Forall₂ (fun b e => ∃ env, Blueprint.entry env b = .ok e) d.blueprints es :=
    hes.imp fun _ _ he => ⟨env, he⟩
  rw [hstate]
  constructor
  case nodup =>
    rw [List.flatMap_append, List.flatMap_singleton, List.nodup_append]
    refine ⟨h.nodup, hn, fun n hm m hm' he => hfresh m hm' ?_⟩
    rwa [h.keys_eq, ← he]
  case entries =>
    rw [List.flatMap_append, List.flatMap_singleton]
    exact List.rel_append h.entries hadded

theorem traverse_eq (h : Built r ds) (env : Environment) :
    Dictionary.traverse (Point.refresh env) r
      = ((ds.flatMap Declaration.blueprints).mapM (Blueprint.entry env)).map .mk := by
  have hentries : (ds.flatMap Declaration.blueprints).mapM (Blueprint.entry env)
      = r.entries.mapM fun e => (e.2.refresh env).map (e.1, ·) := by
    apply mapM_eq_mapM_of_forall₂
    -- Each entry was resolved against parameters of its own, which the refresh forgets.
    refine h.entries.imp fun b e ⟨_, he⟩ => ?_
    obtain ⟨hr, hname⟩ := Blueprint.entry_eq_ok_iff.mp he
    rw [Blueprint.entry, hname, hr.refresh_eq env]
  rw [hentries, Dictionary.traverse]
  cases r.entries.mapM fun e => (e.2.refresh env).map (e.1, ·) <;> rfl

theorem refresh (h : Built r ds) : Built (r.refresh env).state ds := by
  rw [Registry.refresh, h.traverse_eq env]
  cases hes : (ds.flatMap Declaration.blueprints).mapM (Blueprint.entry env) with
  | error e => exact h
  | ok es => exact ⟨h.nodup, (mapM_eq_ok_iff.mp hes).imp fun _ _ he => ⟨env, he⟩⟩

end Built

theorem forEach_register_eq (h : (r.keys ++ ds.flatMap Declaration.names).Nodup) :
    (Outcome.forEach (fun r d => register r env d) r ds).toExcept
      = ((ds.flatMap Declaration.blueprints).mapM (Blueprint.entry env)).map
          fun es => ⟨r.entries ++ es⟩ := by
  induction ds generalizing r with
  | nil => simp [pure, Except.pure, Except.map]
  | cons d ds ih =>
    rw [List.flatMap_cons, ← List.append_assoc] at h
    obtain ⟨-, hn, hfresh⟩ := List.nodup_append.mp (List.nodup_append.mp h).1
    have hregister : r.register env d = _ :=
      register_eq hn fun n hm ht => hfresh n ht n hm rfl
    rw [Outcome.forEach_cons, hregister, List.flatMap_cons, List.mapM_append]
    cases hes : d.blueprints.mapM (Blueprint.entry env) with
    | error e => rfl
    | ok es =>
      have hkeys : (⟨r.entries ++ es⟩ : Registry).keys = r.keys ++ d.names := by
        rw [Dictionary.keys, List.map_append, map_fst_of_mapM_entry hes]
        rfl
      change (Outcome.forEach _ (⟨r.entries ++ es⟩ : Registry) ds).toExcept = _
      rw [ih (hkeys ▸ h)]
      cases (ds.flatMap Declaration.blueprints).mapM (Blueprint.entry env) with
      | error => rfl
      | ok more =>
        have hassoc : r.entries ++ es ++ more = r.entries ++ (es ++ more) := List.append_assoc ..
        exact congrArg (fun es => Except.ok (Dictionary.mk es)) hassoc

theorem ofDeclarations_eq (h : (ds.flatMap Declaration.names).Nodup) (env : Environment) :
    ofDeclarations env ds
      = ((ds.flatMap Declaration.blueprints).mapM (Blueprint.entry env)).map .mk :=
  forEach_register_eq (r := {}) h

/-- The registry of declarations with new names fails with the first point that does. -/
theorem ofDeclarations_eq_error_iff (h : (ds.flatMap Declaration.names).Nodup) {e : Error} :
    ofDeclarations env ds = .error e ↔ ∃ before b after,
      ds.flatMap Declaration.blueprints = before ++ b :: after ∧
      (∀ c ∈ before, ∃ p, c.resolve env = .ok p) ∧ b.resolve env = .error e := by
  rw [ofDeclarations_eq h, map_eq_error_iff, Blueprint.mapM_entry, map_eq_error_iff,
    mapM_eq_error_iff]

/-- A refresh is a rebuild from the declarations, and changes nothing where that fails. -/
theorem Built.refresh_eq (h : Built r ds) (env : Environment) :
    r.refresh env = .commit r ((ofDeclarations env ds).map (·, ())) := by
  rw [Registry.refresh, h.traverse_eq env, ofDeclarations_eq h.nodup env]

theorem Built.toExcept_refresh (h : Built r ds) (env : Environment) :
    (r.refresh env).toExcept = ofDeclarations env ds := by
  rw [h.refresh_eq env]
  cases ofDeclarations env ds <;> rfl

theorem Built.forEach (h : Built r ds) {more : List Declaration} {r' : Registry}
    (hr : (Outcome.forEach (fun r d => Registry.register r env d) r more).toExcept = .ok r') :
    Built r' (ds ++ more) := by
  induction more generalizing r ds with
  | nil => cases hr; rwa [List.append_nil]
  | cons d more ih =>
    rw [Outcome.forEach_cons] at hr
    cases hd : (Registry.register r env d).answer with
    | error e => rw [hd] at hr; cases hr
    | ok =>
      rw [hd] at hr
      rw [List.append_cons]
      exact ih (h.register hd) hr

theorem built_of_ofDeclarations (h : ofDeclarations env ds = .ok r) : Built r ds :=
  Built.nil.forEach h

theorem forall₂_entry_of_ofDeclarations (h : ofDeclarations env ds = .ok r) :
    List.Forall₂ (fun b e => Blueprint.entry env b = .ok e)
      (ds.flatMap Declaration.blueprints) r.entries := by
  rw [ofDeclarations_eq (built_of_ofDeclarations h).nodup, map_eq_ok_iff] at h
  obtain ⟨es, hes, rfl⟩ := h
  exact mapM_eq_ok_iff.mp hes

theorem exists_mem_entries_of_ofDeclarations (h : ofDeclarations env ds = .ok r) {b : Blueprint}
    (hb : b ∈ ds.flatMap Declaration.blueprints) :
    ∃ p, b.Resolves env p ∧ (b.name, p) ∈ r.entries := by
  have hflip : List.Forall₂ (fun e b => Blueprint.entry env b = .ok e) r.entries _ :=
    (forall₂_entry_of_ofDeclarations h).flip
  obtain ⟨⟨name, p⟩, hp, hentry⟩ := exists_mem_of_forall₂ hflip hb
  obtain ⟨hresolves, rfl⟩ := Blueprint.entry_eq_ok_iff.mp hentry
  exact ⟨p, hresolves, hp⟩

theorem mem_entries_iff_of_ofDeclarations (h : ofDeclarations env ds = .ok r) {name : String}
    {p : Point} : (name, p) ∈ r.entries ↔
      ∃ b ∈ ds.flatMap Declaration.blueprints, b.Resolves env p ∧ b.name = name := by
  constructor
  · intro hp
    obtain ⟨b, hb, he⟩ := exists_mem_of_forall₂ (forall₂_entry_of_ofDeclarations h) hp
    exact ⟨b, hb, Blueprint.entry_eq_ok_iff.mp he⟩
  · rintro ⟨b, hb, hp, rfl⟩
    obtain ⟨q, hq, hmem⟩ := exists_mem_entries_of_ofDeclarations h hb
    rw [← Blueprint.resolve_eq_ok_iff] at hp hq
    obtain rfl := Except.ok.inj (hp.symm.trans hq)
    exact hmem

theorem elaborate_state_fst (r : Registry) (t : Table) :
    (r.elaborate t).state.1 = (r.refresh t.environment).state := by
  simp only [elaborate]
  split
  · rfl
  · split <;> rfl

end Registry

end Interconnect
