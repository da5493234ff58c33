import Interconnect.Proofs.Assignment
import Interconnect.Proofs.History
import Interconnect.Proofs.Symbols
import Interconnect.Proofs.Validity.Point

/-! # What stores keep

A table holds the parameters that were declared, and a registry the points that were accepted,
each in that order and under its own name. A parameter keeps what it was declared with, has a
value of its kind, and its marks are never taken back. A point keeps its name and its
declaration, and its keys name parameters of the right kinds, also when the table has changed
since the point was resolved.
-/

namespace Interconnect

open Parameter (Overrides Table)
open Point (Declaration)

namespace Dictionary

variable {α : Type} {R : α → α → Prop} {d d' d'' : Dictionary α} {name : String}

/-- Every entry is still there at its place, under its name and changed as it may. -/
def Grows (R : α → α → Prop) (d d' : Dictionary α) : Prop :=
  ∀ (n : Nat) (e : String × α), d.entries[n]? = some e →
    ∃ v, d'.entries[n]? = some (e.1, v) ∧ R e.2 v

theorem Grows.refl (hR : ∀ v, R v v) (d : Dictionary α) : d.Grows R d :=
  fun _ e he => ⟨e.2, he, hR e.2⟩

theorem Grows.trans (hR : ∀ {u v w}, R u v → R v w → R u w) (h : d.Grows R d')
    (h' : d'.Grows R d'') : d.Grows R d'' := by
  intro n e he
  obtain ⟨v, hv, huv⟩ := h n e he
  obtain ⟨w, hw, hvw⟩ := h' n (e.1, v) hv
  exact ⟨w, hw, hR huv hvw⟩

theorem grows_modify (hR : ∀ v, R v v) {f : α → α} (hf : ∀ v, R v (f v)) (d : Dictionary α)
    (name : String) : d.Grows R (d.modify name f) := by
  intro n e he
  by_cases hn : e.1 = name
  · exact ⟨f e.2, by simp [modify, he, hn], hf e.2⟩
  · exact ⟨e.2, by simp [modify, he, hn], hR e.2⟩

theorem grows_insert_of_notMem (hR : ∀ v, R v v) (h : name ∉ d.keys) (value : α) :
    d.Grows R (d.insert name value) := by
  intro n e he
  obtain ⟨hlt, -⟩ := List.getElem?_eq_some_iff.mp he
  rw [insert_of_notMem h, List.getElem?_append_left hlt]
  exact ⟨e.2, he, hR e.2⟩

theorem Grows.exists_get? (h : d.Grows R d') (hn : d'.keys.Nodup) {v : α}
    (hv : d.get? name = some v) : ∃ v', d'.get? name = some v' ∧ R v v' := by
  obtain ⟨n, he⟩ := List.mem_iff_getElem?.mp (mem_entries_of_get? hv)
  obtain ⟨v', he', hR⟩ := h n (name, v) he
  exact ⟨v', (get?_eq_some_iff hn).mpr (List.mem_of_getElem? he'), hR⟩

end Dictionary

namespace Parameter

/-- What holds of a declared parameter for ever. -/
structure Represents (p : Parameter) (d : Declaration) : Prop where
  name : p.name = d.name
  kind : Kind.ofName? d.kind = some p.kind
  allowed : p.allowed = d.allowed
  units : p.units = d.units
  description : p.description = d.description
  derived : p.derived = d.derived
  value : p.value.kind = p.kind
  supplied : p.supplied = true → p.derived = true

/-- How a parameter may change: in its value, and by marks that it did not have. -/
structure Evolves (p p' : Parameter) : Prop where
  declared : p' = { p with value := p'.value, consumed := p'.consumed, supplied := p'.supplied }
  consumed : p.consumed = true → p'.consumed = true
  supplied : p.supplied = true → p'.supplied = true

variable {p p' p'' : Parameter} {d : Declaration}

theorem represents_of_ofDeclaration (h : ofDeclaration d = .ok p) : p.Represents d := by
  have hvalue : p.value.kind = p.kind := kind_of_ofDeclaration h
  unfold ofDeclaration at h
  split at h
  · cases h
  next hkind =>
    dsimp only at h
    split at h
    · cases h; exact ⟨rfl, hkind, rfl, rfl, rfl, rfl, hvalue, nofun⟩
    · cases h
    · obtain ⟨v, -, rfl⟩ := map_eq_ok_iff.mp h
      exact ⟨rfl, hkind, rfl, rfl, rfl, rfl, hvalue, nofun⟩

theorem Represents.assign (h : p.Represents d) {raw : Scalar} {v : Value}
    (hv : p.kind.convert? raw = some v) : (p.assign v).Represents d :=
  { h with
    value := Kind.kind_of_convert? hv
    supplied := fun hs => by
      rcases Bool.or_eq_true_iff.mp hs with hs | hd
      · exact h.supplied hs
      · exact hd }

theorem Represents.consume (h : p.Represents d) : p.consume.Represents d := { h with }

theorem Evolves.refl (p : Parameter) : p.Evolves p := ⟨rfl, id, id⟩

theorem Evolves.trans (h : p.Evolves p') (h' : p'.Evolves p'') : p.Evolves p'' where
  declared := by rw [h'.declared, h.declared]
  consumed hc := h'.consumed (h.consumed hc)
  supplied hs := h'.supplied (h.supplied hs)

theorem evolves_assign (v : Value) (p : Parameter) : p.Evolves (p.assign v) :=
  ⟨rfl, id, fun hs => Bool.or_eq_true_iff.mpr (.inl hs)⟩

theorem evolves_consume (p : Parameter) : p.Evolves p.consume := ⟨rfl, fun _ => rfl, id⟩

theorem Evolves.kind_eq (h : p.Evolves p') : p'.kind = p.kind := by rw [h.declared]

theorem Evolves.derived_eq (h : p.Evolves p') : p'.derived = p.derived := by rw [h.declared]

namespace Table

variable {t t' : Table} {ds : List Declaration} {name : String}

/-- A table holds the parameters of the declarations, in order, each under its own name. -/
structure Represents (t : Table) (ds : List Declaration) : Prop where
  nodup : t.keys.Nodup
  entries : List.Forall₂ (fun d e => e.1 = d.name ∧ e.2.Represents d) ds t.entries

theorem Represents.wellTyped (h : t.Represents ds) : t.WellTyped := by
  intro name p hp
  obtain ⟨d, -, -, hd⟩ := exists_mem_of_forall₂ h.entries (Dictionary.mem_entries_of_get? hp)
  exact hd.value

theorem Represents.modify (h : t.Represents ds) {f : Parameter → Parameter}
    (hf : ∀ d p, t.get? name = some p → p.Represents d → (f p).Represents d) :
    Represents (t.modify name f) ds := by
  constructor
  case nodup => rw [Dictionary.keys_modify]; exact h.nodup
  case entries =>
    have hmodified : List.Forall₂ (fun e e' => e' = if e.1 = name then (e.1, f e.2) else e)
        t.entries (t.modify name f).entries :=
      List.forall₂_map_right_iff.mpr (List.forall₂_same.mpr fun _ _ => rfl)
    refine forall₂_of_common h.entries.flip hmodified fun e he d e' hd he' => ?_
    subst he'
    split
    next hname =>
      have hget : t.get? name = some e.2 :=
        (Dictionary.get?_eq_some_iff h.nodup).mpr (hname ▸ he)
      exact ⟨hd.1, hf d e.2 hget hd.2⟩
    · exact hd

theorem Represents.add (h : t.Represents ds) {d : Declaration}
    (hok : (t.add d).answer = .ok ()) : (t.add d).state.Represents (ds ++ [d]) := by
  obtain ⟨p, hfresh, hp, ha⟩ | ⟨e, ha⟩ := add_cases t d
  · rw [ha, Outcome.succeed, Dictionary.insert_of_notMem hfresh]
    constructor
    case nodup =>
      rw [Dictionary.keys, List.map_append, List.nodup_append]
      refine ⟨h.nodup, by simp, fun name hname other hother he => hfresh ?_⟩
      obtain rfl : other = d.name := List.mem_singleton.mp hother
      exact he ▸ hname
    case entries =>
      exact List.rel_append h.entries
        (.cons ⟨rfl, represents_of_ofDeclaration hp⟩ .nil)
  · rw [ha] at hok
    cases hok

theorem represents_of_ofDeclarations (h : ofDeclarations ds = .ok t) : t.Represents ds := by
  have hall {t₀ : Table} {before ds : List Declaration} (ht : t₀.Represents before)
      (h : (Outcome.forEach add t₀ ds).toExcept = .ok t) : t.Represents (before ++ ds) := by
    induction ds generalizing t₀ before with
    | nil =>
      cases h
      rwa [List.append_nil]
    | cons d ds ih =>
      obtain ⟨t₁, hadd, hrest⟩ := Outcome.toExcept_forEach_cons_eq_ok_iff.mp h
      obtain ⟨hok, rfl⟩ := Outcome.toExcept_eq_ok_iff.mp hadd
      rw [List.append_cons]
      exact ih (ht.add hok) hrest
  have hempty : Represents {} [] := ⟨List.nodup_nil, .nil⟩
  exact hall hempty h

/-- The declaration, when the table takes it. -/
def accepts (t : Table) (d : Declaration) : List Declaration :=
  match (t.add d).answer with
  | .ok _ => [d]
  | .error _ => []

theorem grows_add (t : Table) (d : Declaration) : t.Grows Evolves (t.add d).state := by
  obtain ⟨p, hfresh, -, ha⟩ | ⟨e, ha⟩ := add_cases t d
  · rw [ha]
    exact Dictionary.grows_insert_of_notMem Evolves.refl hfresh p
  · rw [ha]
    exact .refl Evolves.refl t

/-- What an operation that declares nothing makes of a table. -/
structure Evolves (t t' : Table) : Prop where
  represents : ∀ ds, t.Represents ds → t'.Represents ds
  grows : t.Grows Parameter.Evolves t'

theorem Evolves.refl (t : Table) : t.Evolves t := ⟨fun _ h => h, .refl Parameter.Evolves.refl t⟩

theorem Evolves.trans {t'' : Table} (h : t.Evolves t') (h' : t'.Evolves t'') : t.Evolves t'' :=
  ⟨fun ds hds => h'.represents ds (h.represents ds hds),
    h.grows.trans Parameter.Evolves.trans h'.grows⟩

theorem evolves_update (t : Table) (name : String) (raw : Scalar) :
    t.Evolves (t.update name raw).state := by
  obtain ⟨p, v, hp, hv, hu⟩ | ⟨e, hu⟩ := update_cases t name raw
  · rw [hu]
    change t.Evolves (t.modify name (·.assign v))
    constructor
    case represents =>
      refine fun ds hds => hds.modify fun d q hq hd => ?_
      obtain rfl := Option.some.inj (hp.symm.trans hq)
      exact hd.assign hv
    case grows => exact Dictionary.grows_modify Parameter.Evolves.refl (evolves_assign v) t name
  · rw [hu]
    exact .refl t

theorem evolves_markConsumed (t : Table) (name : String) :
    t.Evolves (t.markConsumed name).state := by
  unfold markConsumed
  split
  · constructor
    case represents => exact fun ds hds => hds.modify fun _ _ _ hd => hd.consume
    case grows => exact Dictionary.grows_modify Parameter.Evolves.refl evolves_consume t name
  · exact .refl t

theorem evolves_forEach {α : Type} {step : Table → α → Outcome Table Error Unit}
    (h : ∀ s x, Evolves s (step s x).state) (t : Table) (xs : List α) :
    t.Evolves (Outcome.forEach step t xs).state :=
  Outcome.forEach_preserves (P := fun s : Table => t.Evolves s)
    (fun s x hs => hs.trans (h s x)) (.refl t) xs

theorem evolves_applyOverrides (t : Table) (overrides : Overrides) :
    t.Evolves (t.applyOverrides overrides).state :=
  evolves_forEach (fun t (o : String × Scalar) => evolves_update t o.1 o.2) t overrides

theorem evolves_elaborate (r : Registry) (t : Table) : t.Evolves (r.elaborate t).state.2 := by
  have hmarked (names : List String) : t.Evolves (Outcome.forEach markConsumed t names).state :=
    evolves_forEach evolves_markConsumed t names
  simp only [Registry.elaborate]
  split
  · exact .refl t
  · split <;> exact hmarked _

end Table

end Parameter

/-- The kind of the parameters that a field can read. -/
def Field.kind : Field → Parameter.Kind
  | number _ _ => .natural
  | flag _ _ => .boolean

theorem Field.kind_value (f : Field) : f.value.kind = f.kind := by
  cases f <;> rfl

namespace Point

/-- The keys of a point name parameters of the kinds that its fields read. A handshake with a
mode reads a text, and one that is pending waits for a derived parameter. -/
structure Keyed (p : Point) (t : Table) : Prop where
  field : ∀ f ∈ p.fields, ∀ key, f.key = some key → t.kind? key = some f.kind
  handshake : ∀ e key, p.record.endpoint? = some e → e.handshake.key = some key →
    ∃ q, t.get? key = some q ∧ (e.handshake.mode.isSome → q.kind = .text) ∧
      (e.handshake.mode = none → q.derived = true)

/-- The keys stay good while the table grows. -/
theorem Keyed.mono {p : Point} {t t' : Table} (h : p.Keyed t) (hg : t.Grows Parameter.Evolves t')
    (hn : t'.keys.Nodup) : p.Keyed t' where
  field f hf key hk := by
    obtain ⟨q, hq, hkind⟩ := Option.map_eq_some_iff.mp (h.field f hf key hk)
    obtain ⟨q', hq', he⟩ := hg.exists_get? hn hq
    rw [Table.kind?, hq', Option.map_some, he.kind_eq, hkind]
  handshake e key hp hk := by
    obtain ⟨q, hq, htext, hderived⟩ := h.handshake e key hp hk
    obtain ⟨q', hq', he⟩ := hg.exists_get? hn hq
    exact ⟨q', hq', fun hm => he.kind_eq.trans (htext hm),
      fun hm => he.derived_eq.trans (hderived hm)⟩

/-- The declaration that a point keeps, to be resolved again from it. -/
def stored : Point → Option Declaration
  | clock _ => none
  | reset _ => none
  | endpoint d r =>
    match r.direction with
    | .sink => some (.sink d)
    | .source => some (.source d)
  | memoryMapped d r =>
    match r.role with
    | .master => some (.master d)
    | .slave => some (.slave d)
  | conduit d _ => some (.conduit d)

/-- What a declaration contributes to a registry: the names of its points, each with the
declaration that the point keeps. -/
def Declaration.contributes : Declaration → List (String × Option Declaration)
  | clock d => [(d.name, none)]
  | reset d => [(d.name, none)]
  | clockReset d => [(d.clock, none), (d.reset, none)]
  | sink d => [(d.name, some (.sink d))]
  | source d => [(d.name, some (.source d))]
  | master d => [(d.name, some (.master d))]
  | slave d => [(d.name, some (.slave d))]
  | conduit d => [(d.name, some (.conduit d))]

end Point

namespace Blueprint

variable {t : Table} {b : Blueprint} {p : Point}

/-- The declaration that the point of a blueprint keeps. -/
def stored : Blueprint → Option Declaration
  | clock _ => none
  | reset _ => none
  | endpoint .sink d => some (.sink d)
  | endpoint .source d => some (.source d)
  | memoryMapped .master d => some (.master d)
  | memoryMapped .slave d => some (.slave d)
  | conduit d => some (.conduit d)

theorem Resolves.stored_eq {env : Parameter.Environment} (h : b.Resolves env p) :
    p.stored = b.stored := by
  cases h with
  | clock | reset | conduit => rfl
  | @endpoint direction _ _ h => cases h; cases direction <;> rfl
  | @memoryMapped role _ _ h => cases h; cases role <;> rfl

theorem map_stored_blueprints (d : Declaration) :
    d.blueprints.map (fun b => (b.name, b.stored)) = d.contributes := by
  cases d <;> rfl

theorem Resolves.keyed (h : b.Resolves t.environment p) (ht : t.WellTyped) : p.Keyed t where
  field f hf key hk := by
    obtain ⟨o, -, ho⟩ := exists_mem_of_forall₂ h.yields hf
    obtain ⟨r, hread, hvalue⟩ := ho.value_eq hk
    rw [ht.kind?_of_environment hread, hvalue, f.kind_value]
  handshake e key he hk := by
    cases h with
    | clock | reset | memoryMapped | conduit => cases he
    | endpoint h =>
      cases he
      obtain ⟨_, hread, hmode, hpending⟩ := h.handshake.follows hk
      obtain ⟨q, hq, rfl⟩ := Option.map_eq_some_iff.mp hread
      refine ⟨q, hq, fun hm => ?_, fun hm => (hpending hm).1⟩
      rw [hmode] at hm
      obtain ⟨mode, hm⟩ := Option.isSome_iff_exists.mp hm
      obtain ⟨text, htext, -⟩ := Option.bind_eq_some_iff.mp hm
      have hvalue : q.value = .text text := Value.text?_eq_some_iff.mp htext
      rw [← ht key q hq, hvalue]
      rfl

end Blueprint

namespace Registry

variable {t : Table} {r : Registry} {ds : List Declaration} {d : Declaration}

theorem Built.map_stored (h : Built r ds) :
    r.entries.map (fun e => (e.1, e.2.stored)) = ds.flatMap Declaration.contributes := by
  have hentries := map_eq_of_forall₂ (f := fun b => (b.name, b.stored))
    (g := fun e => (e.1, e.2.stored)) h.entries fun b e ⟨_, he⟩ => by
      obtain ⟨hresolves, hname⟩ := Blueprint.entry_eq_ok_iff.mp he
      rw [hname, hresolves.stored_eq]
  rw [hentries, List.map_flatMap]
  simp only [Blueprint.map_stored_blueprints]

theorem Built.name_eq (h : Built r ds) {e : String × Point} (he : e ∈ r.entries) :
    e.2.name = e.1 := by
  obtain ⟨b, -, _, hb⟩ := exists_mem_of_forall₂ h.entries he
  obtain ⟨hresolves, hname⟩ := Blueprint.entry_eq_ok_iff.mp hb
  exact hresolves.name_eq.trans hname

theorem keyed_register (ht : t.WellTyped) (h : ∀ e ∈ r.entries, e.2.Keyed t) (d : Declaration) :
    ∀ e ∈ (r.register t.environment d).state.entries, e.2.Keyed t := by
  cases hok : (r.register t.environment d).answer with
  | error e => rwa [state_register_of_error hok]
  | ok =>
    obtain ⟨-, -, es, hes, hstate⟩ := exists_of_register_ok hok
    rw [hstate]
    intro e he
    rcases List.mem_append.mp he with he | he
    · exact h e he
    · obtain ⟨b, -, hb⟩ := exists_mem_of_forall₂ hes he
      exact (Blueprint.entry_eq_ok_iff.mp hb).1.keyed ht

theorem keyed_refresh (hr : Built r ds) (ht : t.WellTyped) (h : ∀ e ∈ r.entries, e.2.Keyed t) :
    ∀ e ∈ (r.refresh t.environment).state.entries, e.2.Keyed t := by
  rw [hr.refresh_eq]
  cases hr' : ofDeclarations t.environment ds with
  | error => exact h
  | ok r' =>
    rintro ⟨name, p⟩ hp
    obtain ⟨b, -, hb, -⟩ := (mem_entries_iff_of_ofDeclarations hr').mp hp
    exact hb.keyed ht

end Registry

end Interconnect
