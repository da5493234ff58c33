import Interconnect.Proofs.Session

/-! # Histories of registries

A registry comes about by registrations, refreshes and elaborations, each against a table
of its own, and each may fail. Whatever the history, every entry stands for a blueprint of
a declaration that was accepted, resolved against one of the tables. The registry of a
session has such a history.
-/

namespace Interconnect

open Parameter (Table)
open Point (Declaration Error)

namespace Dictionary

variable {α : Type}

theorem get?_eq_some_iff {d : Dictionary α} (h : d.keys.Nodup) {name : String} {value : α} :
    d.get? name = some value ↔ (name, value) ∈ d.entries := by
  refine ⟨mem_entries_of_get?, fun hm => ?_⟩
  obtain ⟨before, after, he⟩ := List.append_of_mem hm
  refine List.lookup_eq_some_iff.mpr ⟨before, after, he, fun e hb => ?_⟩
  rw [keys, he, List.map_append, List.nodup_append] at h
  have hne : e.1 ≠ name := h.2.2 e.1 (List.mem_map_of_mem hb) name List.mem_cons_self
  simpa using hne.symm

end Dictionary

namespace Registry

/-- The registries that operations lead to, with the declarations accepted and the tables
read on the way. -/
inductive Reached : Registry → List Declaration → List Table → Prop where
  | empty : Reached {} [] []
  | accept {r : Registry} {ds : List Declaration} {ts : List Table} {t : Table}
      {d : Declaration} : Reached r ds ts → (r.register t.environment d).answer = .ok () →
      Reached (r.register t.environment d).state (ds ++ [d]) (t :: ts)
  | refuse {r : Registry} {ds : List Declaration} {ts : List Table} {t : Table}
      {d : Declaration} {e : Error} : Reached r ds ts →
      (r.register t.environment d).answer = .error e →
      Reached (r.register t.environment d).state ds (t :: ts)
  | refresh {r : Registry} {ds : List Declaration} {ts : List Table} {t : Table} :
      Reached r ds ts → Reached (r.refresh t.environment).state ds (t :: ts)
  | elaborate {r : Registry} {ds : List Declaration} {ts : List Table} {t : Table} :
      Reached r ds ts → Reached (r.elaborate t).state.1 ds (t :: ts)

/-- An entry comes from a blueprint of one of the declarations under one of the tables. -/
def Sourced (ds : List Declaration) (ts : List Table) (e : String × Point) : Prop :=
  ∃ t ∈ ts, ∃ d ∈ ds, ∃ b ∈ d.blueprints, b.Resolves t.environment e.2 ∧ b.name = e.1

theorem Sourced.mono {ds ds' : List Declaration} {ts ts' : List Table} {e : String × Point}
    (h : Sourced ds ts e) (hds : ds ⊆ ds') (hts : ts ⊆ ts') : Sourced ds' ts' e := by
  obtain ⟨t, ht, d, hd, hb⟩ := h
  exact ⟨t, hts ht, d, hds hd, hb⟩

namespace Reached

variable {r : Registry} {ds : List Declaration} {ts : List Table}

theorem built (h : Reached r ds ts) : Built r ds := by
  induction h with
  | empty => exact .nil
  | accept _ hok ih => exact ih.register hok
  | refuse _ he ih => rwa [state_register_of_error he]
  | refresh _ ih => exact ih.refresh
  | elaborate _ ih =>
    rw [elaborate_state_fst]
    exact ih.refresh

theorem nodup_keys (h : Reached r ds ts) : r.keys.Nodup := h.built.nodup_keys

theorem sourced_refresh (h : Built r ds) (t : Table) (hs : ∀ e ∈ r.entries, Sourced ds ts e) :
    ∀ e ∈ (r.refresh t.environment).state.entries, Sourced ds (t :: ts) e := by
  rw [h.refresh_eq]
  cases hr : ofDeclarations t.environment ds with
  | error => exact fun e he => (hs e he).mono (List.Subset.refl ds) (List.subset_cons_self t ts)
  | ok r' =>
    intro e he
    obtain ⟨b, hb, hresolves⟩ := (mem_entries_iff_of_ofDeclarations hr).mp he
    obtain ⟨d, hd, hb⟩ := List.mem_flatMap.mp hb
    exact ⟨t, List.mem_cons_self, d, hd, b, hb, hresolves⟩

theorem sourced (h : Reached r ds ts) : ∀ e ∈ r.entries, Sourced ds ts e := by
  induction h with
  | empty =>
    intro e he
    cases he
  | @accept r ds ts t d _ hok ih =>
    obtain ⟨-, -, es, hes, hstate⟩ := exists_of_register_ok hok
    rw [hstate]
    intro e he
    rcases List.mem_append.mp he with he | he
    · exact (ih e he).mono (List.subset_append_left ds [d]) (List.subset_cons_self t ts)
    · obtain ⟨b, hb, he⟩ := exists_mem_of_forall₂ hes he
      exact ⟨t, List.mem_cons_self, d, by simp, b, hb, Blueprint.entry_eq_ok_iff.mp he⟩
  | @refuse r ds ts t _ _ _ he ih =>
    rw [state_register_of_error he]
    exact fun e he => (ih e he).mono (List.Subset.refl ds) (List.subset_cons_self t ts)
  | refresh hr ih => exact sourced_refresh hr.built _ ih
  | elaborate hr ih =>
    rw [elaborate_state_fst]
    exact sourced_refresh hr.built _ ih

end Reached

end Registry

namespace Session

open Registry (Reached)

variable {s : Session} {ds : List Declaration} {ts : List Table}

theorem exists_reached_perform (h : Reached s.points ds ts) (o : Operation) :
    ∃ ts', Reached (s.perform o).state.points (ds ++ s.accepts o) ts' := by
  cases o with
  | register d =>
    refine ⟨s.parameters :: ts, ?_⟩
    cases hd : (s.points.register s.parameters.environment d).answer with
    | error e => simpa [accepts, perform, onPoints, hd, Except.map] using h.refuse hd
    | ok => simpa [accepts, perform, onPoints, hd, Except.map] using h.accept hd
  | refresh =>
    refine ⟨s.parameters :: ts, ?_⟩
    simpa [accepts, perform, onPoints] using h.refresh
  | elaborate =>
    refine ⟨s.parameters :: ts, ?_⟩
    simpa [accepts, perform, Outcome.mapState] using h.elaborate
  | add | addHeading | assign | applyOverrides | markConsumed =>
    refine ⟨ts, ?_⟩
    simpa [accepts, perform, onParameters] using h

theorem exists_reached_of_reached (h : Reached s.points ds ts) (os : List Operation) :
    ∃ ts', Reached (s.run os).points (ds ++ s.accepted os) ts' := by
  induction os generalizing s ds ts with
  | nil => exact ⟨ts, by rwa [accepted, List.append_nil]⟩
  | cons o os ih =>
    obtain ⟨ts', h⟩ := exists_reached_perform h o
    rw [accepted, ← List.append_assoc]
    exact ih h

/-- The registry of a session is reached, whatever its operations do to the parameters. -/
theorem exists_reached_run (t : Table) (os : List Operation) :
    ∃ ts, Reached ((start t).run os).points ((start t).accepted os) ts := by
  have hstart : Reached (start t).points [] [] := .empty
  exact exists_reached_of_reached hstart os

end Session

end Interconnect
