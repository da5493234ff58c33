import Interconnect.Proofs.Atomicity
import Interconnect.Proofs.Reordering

/-! # The last value written for a name

Values are assigned one after another, and a failure stops the run. Still the order matters
only between values for the same name. Assignments succeed when each of them would succeed
alone, and every parameter is then left with the last value written for it. An interface is
resolved with the values of its description written first and those of the host after them.
-/

namespace Interconnect

open Parameter (Kind Overrides Table Value)

namespace Parameter

namespace Overrides

/-- The last value that is written for a name. -/
def last? (o : Overrides) (name : String) : Option Scalar := o.reverse.lookup name

/-- The same values are written for each name, in the same order. -/
def SameWrites (o o' : Overrides) : Prop :=
  ∀ name, o'.filter (·.1 = name) = o.filter (·.1 = name)

variable {o o' : Overrides} {name : String} {raw : Scalar}

theorem last?_append (o o' : Overrides) (name : String) :
    last? (o ++ o') name = (last? o' name).or (last? o name) := by
  rw [last?, List.reverse_append, List.lookup_append]
  rfl

theorem last?_cons (w : String × Scalar) (o : Overrides) (name : String) :
    last? (w :: o) name = (last? o name).or (if name = w.1 then some w.2 else none) := by
  have hsingle : last? [w] name = if name = w.1 then some w.2 else none := by
    obtain ⟨key, raw⟩ := w
    by_cases h : name = key
    · simp [last?, h]
    · simp [last?, List.lookup_cons, h, beq_false_of_ne h]
  rw [← List.singleton_append, last?_append, hsingle]

theorem last?_eq_none_iff : last? o name = none ↔ name ∉ o.map Prod.fst := by
  rw [last?, List.lookup_eq_none_iff]
  constructor
  · rintro h hname
    obtain ⟨w, hw, rfl⟩ := List.mem_map.mp hname
    simpa using h w (List.mem_reverse.mpr hw)
  · intro h w hw
    exact bne_iff_ne.mpr fun he =>
      h (List.mem_map.mpr ⟨w, List.mem_reverse.mp hw, he.symm⟩)

theorem mem_of_last? (h : last? o name = some raw) : (name, raw) ∈ o := by
  induction o with
  | nil => cases h
  | cons w o ih =>
    rw [last?_cons, Option.or_eq_some_iff] at h
    obtain h | ⟨-, h⟩ := h
    · exact List.mem_cons_of_mem w (ih h)
    · obtain ⟨rfl, hraw⟩ := Option.ite_none_right_eq_some.mp h
      obtain rfl := Option.some.inj hraw
      exact List.mem_cons_self

theorem last?_filter (o : Overrides) (name : String) :
    last? (o.filter (·.1 = name)) name = last? o name := by
  induction o with
  | nil => rfl
  | cons w o ih =>
    by_cases h : w.1 = name
    · rw [List.filter_cons_of_pos (by simpa using h), last?_cons, last?_cons, ih]
    · rw [List.filter_cons_of_neg (by simpa using h), last?_cons, ih, if_neg (Ne.symm h),
        Option.or_none]

theorem SameWrites.last?_eq (h : SameWrites o o') (name : String) :
    last? o' name = last? o name := by
  rw [← last?_filter o', h name, last?_filter]

theorem SameWrites.mem_iff (h : SameWrites o o') (w : String × Scalar) : w ∈ o' ↔ w ∈ o := by
  have hfilter (o : Overrides) : w ∈ o.filter (·.1 = w.1) ↔ w ∈ o := by simp
  rw [← hfilter o', h w.1, hfilter]

theorem SameWrites.cons (h : SameWrites o o') (w : String × Scalar) :
    SameWrites (w :: o) (w :: o') := by
  intro name
  rw [List.filter_cons, List.filter_cons, h name]

theorem sameWrites_swap {w w' : String × Scalar} (h : w.1 ≠ w'.1) (o : Overrides) :
    SameWrites (w :: w' :: o) (w' :: w :: o) := by
  intro name
  by_cases hw : w.1 = name
  · have hw' : w'.1 ≠ name := hw ▸ h.symm
    simp [hw, hw']
  · simp [List.filter_cons, hw]

end Overrides

open Overrides (last?_append last?_cons last?_eq_none_iff mem_of_last?)

namespace Table

variable {t u : Table} {o : Overrides} {name : String} {raw : Scalar} {v : Value}

/-- The value that would be assigned when the written one is the only one. -/
def conversion? (t : Table) (name : String) (raw : Scalar) : Option Value :=
  (t.kind? name).bind (·.convert? raw)

theorem conversion?_eq_some_iff : t.conversion? name raw = some v ↔
    ∃ p, t.get? name = some p ∧ p.kind.convert? raw = some v := by
  simp [conversion?, kind?, Option.bind_eq_some_iff]

theorem conversion?_modify_assign (t : Table) (name : String) (v : Value) :
    conversion? (t.modify name (·.assign v)) = t.conversion? := by
  funext other raw
  rw [conversion?, kind?_modify_assign, conversion?]

/-- What the last value that is written for a name converts to. -/
def settled? (t : Table) (o : Overrides) (name : String) : Option Value :=
  (Overrides.last? o name).bind (t.conversion? name)

/-- Every parameter that is named has been assigned the last value written for it. -/
def overwritten (t : Table) (o : Overrides) : Table :=
  ⟨t.entries.map fun e => (e.1, (t.settled? o e.1).elim e.2 e.2.assign)⟩

theorem overwritten_nil (t : Table) : t.overwritten [] = t :=
  congrArg Dictionary.mk (List.map_id t.entries)

theorem settled?_modify_assign (t : Table) (name : String) (v : Value) (o : Overrides) :
    settled? (t.modify name (·.assign v)) o = t.settled? o := by
  funext other
  rw [settled?, conversion?_modify_assign, settled?]

theorem settled?_cons {w : String × Scalar} (hw : t.conversion? w.1 w.2 = some v)
    (ho : ∀ w ∈ o, (t.conversion? w.1 w.2).isSome) (name : String) :
    t.settled? (w :: o) name = (t.settled? o name).or (if name = w.1 then some v else none) := by
  rw [settled?, last?_cons, settled?]
  cases hlast : Overrides.last? o name with
  | none =>
    by_cases hn : name = w.1
    · simp [hn, hw]
    · simp [hn]
  | some raw =>
    have hlater : (t.conversion? name raw).isSome := ho _ (mem_of_last? hlast)
    obtain ⟨v', hv'⟩ := Option.isSome_iff_exists.mp hlater
    simp [hv']

theorem overwritten_cons {w : String × Scalar} (hw : t.conversion? w.1 w.2 = some v)
    (ho : ∀ w ∈ o, (t.conversion? w.1 w.2).isSome) :
    overwritten (t.modify w.1 (·.assign v)) o = t.overwritten (w :: o) := by
  rw [overwritten, overwritten, settled?_modify_assign, Dictionary.modify, List.map_map]
  refine congrArg Dictionary.mk (List.map_congr_left fun e _ => ?_)
  rw [Function.comp_apply, settled?_cons hw ho]
  by_cases hn : e.1 = w.1
  · rw [if_pos hn, if_pos hn]
    cases t.settled? o e.1 <;> simp
  · rw [if_neg hn, if_neg hn, Option.or_none]

/-- Assignments succeed when each of them does alone, and leave the last values. -/
theorem applyOverrides_eq_ok_iff : (t.applyOverrides o).toExcept = .ok u ↔
    (∀ w ∈ o, (t.conversion? w.1 w.2).isSome) ∧ u = t.overwritten o := by
  induction o generalizing t with
  | nil =>
    rw [applyOverrides, Outcome.forEach_nil, Outcome.toExcept_succeed, overwritten_nil]
    exact ⟨fun h => ⟨List.forall_mem_nil _, (Except.ok.inj h).symm⟩, fun h => congrArg _ h.2.symm⟩
  | cons w o ih =>
    rw [applyOverrides, Outcome.toExcept_forEach_cons_eq_ok_iff, List.forall_mem_cons]
    constructor
    · rintro ⟨s, hs, hrest⟩
      obtain ⟨p, v, hp, hv, rfl⟩ := update_eq_ok_iff.mp hs
      have hw : t.conversion? w.1 w.2 = some v := conversion?_eq_some_iff.mpr ⟨p, hp, hv⟩
      obtain ⟨ho, rfl⟩ := ih.mp hrest
      -- The first assignment keeps the kinds, by which the others are converted.
      rw [conversion?_modify_assign] at ho
      exact ⟨⟨Option.isSome_iff_exists.mpr ⟨v, hw⟩, ho⟩, overwritten_cons hw ho⟩
    · rintro ⟨⟨hw, ho⟩, rfl⟩
      obtain ⟨v, hw⟩ := Option.isSome_iff_exists.mp hw
      obtain ⟨p, hp, hv⟩ := conversion?_eq_some_iff.mp hw
      refine ⟨_, update_eq_ok_iff.mpr ⟨p, v, hp, hv, rfl⟩, ih.mpr ⟨?_, ?_⟩⟩
      · rwa [conversion?_modify_assign]
      · exact (overwritten_cons hw ho).symm

theorem keys_overwritten (t : Table) (o : Overrides) : (t.overwritten o).keys = t.keys := by
  simp [Dictionary.keys, overwritten]

theorem get?_overwritten (t : Table) (o : Overrides) (name : String) :
    (t.overwritten o).get? name
      = (t.get? name).map fun p => (t.settled? o name).elim p p.assign :=
  Dictionary.lookup_map_entries
    (fun e : String × Parameter => (t.settled? o e.1).elim e.2 e.2.assign) t.entries name

theorem conversion?_overwritten (t : Table) (o : Overrides) :
    conversion? (t.overwritten o) = t.conversion? := by
  funext name raw
  have hkind : kind? (t.overwritten o) name = t.kind? name := by
    rw [kind?, get?_overwritten, Option.map_map, kind?]
    refine Option.map_congr fun p _ => ?_
    cases t.settled? o name <;> rfl
  rw [conversion?, hkind, conversion?]

theorem overwritten_overwritten (t : Table) (o : Overrides) :
    overwritten (t.overwritten o) o = t.overwritten o := by
  refine congrArg Dictionary.mk ?_
  have hsettled : settled? (t.overwritten o) o = t.settled? o := by
    funext name
    rw [settled?, conversion?_overwritten, settled?]
  rw [hsettled, overwritten, List.map_map]
  refine List.map_congr_left fun e _ => ?_
  cases h : t.settled? o e.1 <;> simp [h]

theorem overwritten_of_sameWrites {o' : Overrides} (h : o.SameWrites o') :
    t.overwritten o' = t.overwritten o := by
  have hsettled : t.settled? o' = t.settled? o := by
    funext name
    rw [settled?, h.last?_eq, settled?]
  rw [overwritten, hsettled, overwritten]

theorem applyOverrides_overwritten (h : ∀ w ∈ o, (t.conversion? w.1 w.2).isSome) :
    (t.overwritten o).applyOverrides o = .succeed (t.overwritten o) () := by
  refine Outcome.eq_succeed_of_toExcept (applyOverrides_eq_ok_iff.mpr ⟨?_, ?_⟩)
  · rwa [conversion?_overwritten]
  · exact (overwritten_overwritten t o).symm

/-- Assignments that are made a second time find their values in place and change nothing. This
includes those before a failure, which then happens again. -/
theorem applyOverrides_again (t : Table) (o : Overrides) :
    (t.applyOverrides o).state.applyOverrides o = t.applyOverrides o := by
  have hsucceeds {s : Table} {o : Overrides} (h : (t.applyOverrides o).toExcept = .ok s) :
      s.applyOverrides o = .succeed s () := by
    obtain ⟨hconverts, rfl⟩ := applyOverrides_eq_ok_iff.mp h
    exact applyOverrides_overwritten hconverts
  cases hanswer : (t.applyOverrides o).answer with
  | ok =>
    have hok : (t.applyOverrides o).toExcept = .ok (t.applyOverrides o).state :=
      Outcome.toExcept_eq_ok_iff.mpr ⟨hanswer, rfl⟩
    rw [hsucceeds hok, ← Outcome.eq_succeed_of_toExcept hok]
  | error e =>
    obtain ⟨before, w, after, s, rfl, hbefore, hw, hfail⟩ :=
      exists_of_answer_applyOverrides hanswer
    have hagain : s.applyOverrides before = .succeed s () :=
      hsucceeds (by rw [hbefore, Outcome.toExcept_succeed])
    rw [applyOverrides] at hagain
    rw [hfail]
    change s.applyOverrides (before ++ w :: after) = .fail s e
    rw [applyOverrides, Outcome.forEach_append, hagain]
    simp only [Outcome.succeed, Outcome.forEach_cons, hw, atomic_update s w.1 w.2 e hw]

theorem answer_update (t : Table) (name : String) (raw : Scalar) :
    (t.update name raw).answer = (match t.kind? name with
      | none => .error (.unknownParameter name)
      | some kind => (kind.convert name raw).map fun _ => ()) := by
  simp only [update, kind?]
  cases t.get? name with
  | none => rfl
  | some p =>
    simp only [Option.map_some]
    cases hv : p.kind.convert name raw <;> rfl

theorem answer_update_applyOverrides (t : Table) (o : Overrides) (name : String) (raw : Scalar) :
    ((t.applyOverrides o).state.update name raw).answer = (t.update name raw).answer := by
  rw [answer_update, kind?_applyOverrides, answer_update]

theorem applyOverrides_eq_ok_iff_of_sameWrites {o' : Overrides} (h : o.SameWrites o') :
    (t.applyOverrides o').toExcept = .ok u ↔ (t.applyOverrides o).toExcept = .ok u := by
  simp only [applyOverrides_eq_ok_iff, overwritten_of_sameWrites h, h.mem_iff]

theorem exists_applyOverrides_of_sameWrites {o' : Overrides} (h : o.SameWrites o') {e : Error}
    (he : (t.applyOverrides o).answer = .error e) :
    ∃ before w after e', o' = before ++ w :: after ∧
      (t.applyOverrides before).answer = .ok () ∧ (t.update w.1 w.2).answer = .error e' ∧
      t.applyOverrides o' = .fail (t.applyOverrides before).state e' := by
  cases he' : (t.applyOverrides o').answer with
  | ok =>
    have hok : (t.applyOverrides o').toExcept = .ok _ := Outcome.toExcept_eq_ok_iff.mpr ⟨he', rfl⟩
    rw [applyOverrides_eq_ok_iff_of_sameWrites h, Outcome.toExcept_eq_ok_iff, he] at hok
    exact nomatch hok.1
  | error e' =>
    obtain ⟨before, w, after, s, rfl, hbefore, hw, hfail⟩ := exists_of_answer_applyOverrides he'
    have hs : s = (t.applyOverrides before).state := by rw [hbefore, Outcome.succeed]
    rw [hs, answer_update_applyOverrides] at hw
    exact ⟨before, w, after, e', rfl, congrArg Outcome.answer hbefore, hw, hs ▸ hfail⟩

/-- What comes of values that are assigned in order. Values that are reordered between names
succeed together, and then leave the same table. They also fail together, but each order stops
at the first of its values that would fail alone. -/
structure LastWritesWin (t : Table) (o : Overrides) : Prop where
  succeeds_iff : (∃ u, (t.applyOverrides o).toExcept = .ok u) ↔ ∀ w ∈ o, ∃ p v,
    t.get? w.1 = some p ∧ p.kind ≠ .heading ∧ p.kind.convert? w.2 = some v
  keys : ∀ u, (t.applyOverrides o).toExcept = .ok u → u.keys = t.keys
  unnamed : ∀ u, (t.applyOverrides o).toExcept = .ok u → ∀ name, name ∉ o.map Prod.fst →
    u.get? name = t.get? name
  named : ∀ u, (t.applyOverrides o).toExcept = .ok u → ∀ name p raw, t.get? name = some p →
    o.last? name = some raw → ∃ v, p.kind.convert? raw = some v ∧
      u.get? name = some { p with value := v, supplied := p.supplied || p.derived }
  reordered : ∀ o', o.SameWrites o' → ∀ u, (t.applyOverrides o').toExcept = .ok u ↔
    (t.applyOverrides o).toExcept = .ok u
  refused : ∀ o', o.SameWrites o' → ∀ e, (t.applyOverrides o).answer = .error e →
    ∃ before w after e', o' = before ++ w :: after ∧
      (t.applyOverrides before).answer = .ok () ∧ (t.update w.1 w.2).answer = .error e' ∧
      t.applyOverrides o' = .fail (t.applyOverrides before).state e'
  again : (t.applyOverrides o).state.applyOverrides o = t.applyOverrides o

theorem lastWritesWin (t : Table) (o : Overrides) : t.LastWritesWin o := by
  constructor
  case succeeds_iff =>
    simp only [applyOverrides_eq_ok_iff, exists_and_left, exists_eq, and_true,
      Option.isSome_iff_exists, conversion?_eq_some_iff]
    refine forall₂_congr fun w _ => ⟨?_, ?_⟩
    · rintro ⟨v, p, hp, hv⟩
      refine ⟨p, hp, fun hheading => ?_, v, hv⟩
      rw [hheading] at hv
      cases hv
    · rintro ⟨p, hp, -, v, hv⟩
      exact ⟨v, p, hp, hv⟩
  case keys =>
    rintro u hu
    obtain ⟨-, rfl⟩ := applyOverrides_eq_ok_iff.mp hu
    exact keys_overwritten t o
  case unnamed =>
    intro u hu name hname
    obtain ⟨-, rfl⟩ := Outcome.toExcept_eq_ok_iff.mp hu
    exact get?_applyOverrides_of_notMem hname
  case named =>
    intro u hu name p raw hp hraw
    obtain ⟨hconverts, rfl⟩ := applyOverrides_eq_ok_iff.mp hu
    have hconverts : (t.conversion? name raw).isSome := hconverts _ (mem_of_last? hraw)
    obtain ⟨v, hv⟩ := Option.isSome_iff_exists.mp hconverts
    obtain ⟨q, hq, hv'⟩ := conversion?_eq_some_iff.mp hv
    obtain rfl := Option.some.inj (hp.symm.trans hq)
    have hsettled : t.settled? o name = some v := by rw [settled?, hraw, Option.bind_some, hv]
    refine ⟨v, hv', ?_⟩
    rw [get?_overwritten, hp, hsettled]
    rfl
  case reordered => exact fun _ h _ => applyOverrides_eq_ok_iff_of_sameWrites h
  case refused => exact fun _ h _ => exists_applyOverrides_of_sameWrites h
  case again => exact applyOverrides_again t o

end Table

theorem initial_of_ofDeclaration {d : Declaration} {p : Parameter} (h : ofDeclaration d = .ok p) :
    Kind.ofName? d.kind = some p.kind ∧
      (p.kind = .heading ∧ p.value = .absent ∨
        ∃ raw, d.value = some raw ∧ p.kind.convert? raw = some p.value) := by
  unfold ofDeclaration at h
  split at h
  · cases h
  next hkind =>
    dsimp only at h
    split at h
    · cases h
      exact ⟨hkind, .inl ⟨rfl, rfl⟩⟩
    · cases h
    next kind raw _ hvalue =>
      obtain ⟨v, hv, rfl⟩ := map_eq_ok_iff.mp h
      unfold Kind.convert at hv
      split at hv
      next he =>
        obtain rfl := Except.ok.inj hv
        exact ⟨hkind, .inr ⟨raw, hvalue, he⟩⟩
      · cases hv

end Parameter

namespace Interface

/-- Every parameter has the last value that the host has written for it, or else the last of
the description, or else the one it is declared with. A heading has none. -/
def HoldsLastWrites (i : Interface) (d : Description) (host : Overrides) : Prop :=
  ∀ declaration ∈ d.parameters, ∃ p, i.parameters.get? declaration.name = some p ∧
    Kind.ofName? declaration.kind = some p.kind ∧
    (p.kind = .heading ∧ p.value = .absent ∨
      ∃ raw, (host.last? declaration.name).or
          ((d.overrides.last? declaration.name).or declaration.value) = some raw ∧
        p.kind.convert? raw = some p.value)

theorem holdsLastWrites_of_resolve {d : Description} {host : Overrides} {i : Interface}
    (h : resolve d host = .ok i) : i.HoldsLastWrites d host := by
  obtain ⟨declared, described, hdeclared, hdescribed, hparameters, -, -⟩ :=
    resolve_eq_ok_iff.mp h
  have happlied : (declared.applyOverrides (d.overrides ++ host)).toExcept = .ok i.parameters :=
    (Outcome.toExcept_forEach_append hdescribed host).trans hparameters
  intro declaration hmem
  obtain ⟨q, hq⟩ := (Table.exists_ofDeclarations_iff.mp ⟨declared, hdeclared⟩).2 declaration hmem
  have hget : declared.get? declaration.name = some q :=
    (Table.get?_eq_some_iff_of_ofDeclarations hdeclared).mpr ⟨declaration, hmem, rfl, hq⟩
  obtain ⟨hkind, hinitial⟩ := Parameter.initial_of_ofDeclaration hq
  have hwins := declared.lastWritesWin (d.overrides ++ host)
  cases hlast : Overrides.last? (d.overrides ++ host) declaration.name with
  | none =>
    have hname := Overrides.last?_eq_none_iff.mp hlast
    refine ⟨q, (hwins.unnamed _ happlied _ hname).trans hget, hkind, ?_⟩
    rw [Overrides.last?_append, Option.or_eq_none_iff] at hlast
    rwa [hlast.1, hlast.2, Option.none_or, Option.none_or]
  | some raw =>
    obtain ⟨v, hv, hassigned⟩ := hwins.named _ happlied _ q raw hget hlast
    refine ⟨_, hassigned, hkind, .inr ⟨raw, ?_, hv⟩⟩
    rw [Overrides.last?_append] at hlast
    rw [← Option.or_assoc, hlast, Option.some_or]

/-- Of the values that are written for a parameter only the last one counts, whichever come
between, and a run of assignments can be repeated. So it is for every table, and for the
parameters of an interface, where the values of the host come after those of the description. -/
theorem lastWrites_prevail :
    (∀ (t : Table) (o : Overrides), t.LastWritesWin o) ∧
      ∀ (d : Description) (host : Overrides) (i : Interface), resolve d host = .ok i →
        i.HoldsLastWrites d host :=
  ⟨Table.lastWritesWin, fun _ _ _ => holdsLastWrites_of_resolve⟩

/-- A master whose count and wrapping are set by the description. -/
def overriddenMaster : Description :=
  { burstMaster with overrides := [("COUNT", .number 8), ("WRAP", .number 0)] }

/-- The count is written twice, and another parameter in between. -/
def repeatedCount : Overrides :=
  [("COUNT", .number 100), ("WIDTH", .text " 64"), ("COUNT", .text "16")]

theorem lastWrites_prevail_overriddenMaster :
    ∃ i, resolve overriddenMaster repeatedCount = .ok i ∧
      i.HoldsLastWrites overriddenMaster repeatedCount ∧
      i.parameters.lookup "COUNT" = some (.natural 16) ∧
      i.parameters.lookup "WRAP" = some (.boolean false) ∧
      ∀ u, (i.parameters.applyOverrides
          [("COUNT", .number 100), ("COUNT", .text "16"), ("WIDTH", .text " 64")]).toExcept
            = .ok u ↔
        (i.parameters.applyOverrides repeatedCount).toExcept = .ok u := by
  have hsame : repeatedCount.SameWrites
      [("COUNT", .number 100), ("COUNT", .text "16"), ("WIDTH", .text " 64")] :=
    (Overrides.sameWrites_swap (by decide) []).cons ("COUNT", .number 100)
  exact ⟨_, rfl, lastWrites_prevail.2 _ _ _ rfl, rfl, rfl,
    (lastWrites_prevail.1 _ repeatedCount).reordered _ hsame⟩

/-- A width, and a value for a parameter that is not there. -/
def strayWidth : Overrides := [("WIDTH", .number 16), ("NONE", .number 1)]

/-- A list that fails leaves another table, and may fail with another error, in another order. -/
theorem applyOverrides_ne_strayWidth :
    ∃ t, Table.ofDeclarations [Showcase.natural "WIDTH" 8] = .ok t ∧
      strayWidth.SameWrites strayWidth.reverse ∧
      (t.applyOverrides strayWidth).state.lookup "WIDTH" = some (.natural 16) ∧
      (t.applyOverrides strayWidth.reverse).state.lookup "WIDTH" = some (.natural 8) ∧
      Overrides.SameWrites [("A", .number 1), ("B", .number 1)]
        [("B", .number 1), ("A", .number 1)] ∧
      (t.applyOverrides [("A", .number 1), ("B", .number 1)]).answer
        = .error (.unknownParameter "A") ∧
      (t.applyOverrides [("B", .number 1), ("A", .number 1)]).answer
        = .error (.unknownParameter "B") :=
  ⟨_, rfl, Overrides.sameWrites_swap (by decide) [], rfl, rfl,
    Overrides.sameWrites_swap (by decide) [], rfl, rfl⟩

end Interface

end Interconnect
