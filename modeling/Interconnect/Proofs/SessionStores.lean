import Interconnect.Proofs.Stores

/-! # The stores of a session

A session starts with nothing declared and nothing registered. Whatever operations follow, and
whichever of them fail, its stores are coherent with what was declared and what was accepted,
and only grow.
-/

namespace Interconnect

open Parameter (Table)
open Point (Declaration)

namespace Session

open Registry (Built)

/-- The parameter that an operation declares, when it succeeds. -/
def declares (s : Session) : Operation → List Parameter.Declaration
  | .add d => s.parameters.accepts d
  | .addHeading name => s.parameters.accepts (.heading name)
  | _ => []

/-- The parameters that a list of operations declares, in order. -/
def declared (s : Session) : List Operation → List Parameter.Declaration
  | [] => []
  | o :: os => s.declares o ++ (s.perform o).state.declared os

/-- What holds of the stores of a session, with what it has declared and accepted. -/
structure Coherent (s : Session) (declared : List Parameter.Declaration)
    (accepted : List Declaration) : Prop where
  parameters : s.parameters.Represents declared
  nodup : s.points.keys.Nodup
  points : s.points.entries.map (fun e => (e.1, e.2.stored))
    = accepted.flatMap Declaration.contributes
  named : ∀ e ∈ s.points.entries, e.2.name = e.1
  keyed : ∀ e ∈ s.points.entries, e.2.Keyed s.parameters

/-- The later session has all parameters and points of the earlier one at their places. -/
structure Grows (s s' : Session) : Prop where
  parameters : s.parameters.Grows Parameter.Evolves s'.parameters
  points : s.points.Grows (fun p p' => p'.name = p.name ∧ p'.stored = p.stored) s'.points

variable {s : Session} {ps : List Parameter.Declaration} {ds : List Declaration}

/-- What an operation does to the parameters: it declares one more, or none. -/
theorem perform_cases (s : Session) (o : Operation) :
    (s.declares o = [] ∧ s.parameters.Evolves (s.perform o).state.parameters) ∨
    ∃ d, s.declares o = [d] ∧ (s.parameters.add d).answer = .ok () ∧
      (s.perform o).state.parameters = (s.parameters.add d).state := by
  have hadd (d : Parameter.Declaration) :
      (s.parameters.accepts d = [] ∧ s.parameters.Evolves (s.parameters.add d).state) ∨
      ∃ c, s.parameters.accepts d = [c] ∧ (s.parameters.add c).answer = .ok () ∧
        (s.parameters.add d).state = (s.parameters.add c).state := by
    obtain ⟨p, -, -, ha⟩ | ⟨e, ha⟩ := Table.add_cases s.parameters d
    · exact .inr ⟨d, by rw [Table.accepts, ha]; rfl, by rw [ha]; rfl, rfl⟩
    · exact .inl ⟨by rw [Table.accepts, ha]; rfl, by rw [ha]; exact .refl s.parameters⟩
  cases o with
  | add d => exact hadd d
  | addHeading name => exact hadd (.heading name)
  | assign name raw => exact .inl ⟨rfl, Table.evolves_update s.parameters name raw⟩
  | applyOverrides overrides =>
    exact .inl ⟨rfl, Table.evolves_applyOverrides s.parameters overrides⟩
  | markConsumed name => exact .inl ⟨rfl, Table.evolves_markConsumed s.parameters name⟩
  | register | refresh => exact .inl ⟨rfl, .refl s.parameters⟩
  | elaborate => exact .inl ⟨rfl, Table.evolves_elaborate s.points s.parameters⟩

theorem grows_perform (s : Session) (o : Operation) :
    s.parameters.Grows Parameter.Evolves (s.perform o).state.parameters := by
  obtain ⟨-, h⟩ | ⟨d, -, -, hstate⟩ := perform_cases s o
  · exact h.grows
  · rw [hstate]
    exact Table.grows_add s.parameters d

theorem represents_perform (h : s.parameters.Represents ps) (o : Operation) :
    (s.perform o).state.parameters.Represents (ps ++ s.declares o) := by
  obtain ⟨hnone, he⟩ | ⟨d, hd, hok, hstate⟩ := perform_cases s o
  · rw [hnone, List.append_nil]
    exact he.represents ps h
  · rw [hd, hstate]
    exact h.add hok

theorem keyed_perform (hp : s.parameters.Represents ps) (hb : Built s.points ds)
    (h : ∀ e ∈ s.points.entries, e.2.Keyed s.parameters) (o : Operation) :
    ∀ e ∈ (s.perform o).state.points.entries, e.2.Keyed (s.perform o).state.parameters := by
  have hnodup := (represents_perform hp o).nodup
  have hgrows := grows_perform s o
  -- An operation resolves points against the table that it finds, which can only grow.
  suffices hfound : ∀ e ∈ (s.perform o).state.points.entries, e.2.Keyed s.parameters from
    fun e he => (hfound e he).mono hgrows hnodup
  cases o with
  | register d => exact Registry.keyed_register hp.wellTyped h d
  | refresh => exact Registry.keyed_refresh hb hp.wellTyped h
  | elaborate =>
    change ∀ e ∈ (s.points.elaborate s.parameters).state.1.entries, e.2.Keyed s.parameters
    rw [Registry.elaborate_state_fst]
    exact Registry.keyed_refresh hb hp.wellTyped h
  | add | addHeading | assign | applyOverrides | markConsumed => exact h

/-- The invariant of a run, with what was declared and accepted before. -/
theorem represents_run (hp : s.parameters.Represents ps) (hb : Built s.points ds)
    (h : ∀ e ∈ s.points.entries, e.2.Keyed s.parameters) (os : List Operation) :
    (s.run os).parameters.Represents (ps ++ s.declared os) ∧
      ∀ e ∈ (s.run os).points.entries, e.2.Keyed (s.run os).parameters := by
  induction os generalizing s ps ds with
  | nil => exact ⟨by rwa [declared, List.append_nil], h⟩
  | cons o os ih =>
    rw [declared, ← List.append_assoc]
    exact ih (represents_perform hp o) (built_perform hb o) (keyed_perform hp hb h o)

theorem coherent_run (os : List Operation) :
    ((start {}).run os).Coherent ((start {}).declared os) ((start {}).accepted os) := by
  have hparameters : (start {}).parameters.Represents [] := ⟨.nil, .nil⟩
  have hbuilt : Built (start {}).points [] := .nil
  have hkeyed : ∀ e ∈ (start {}).points.entries, e.2.Keyed (start {}).parameters :=
    List.forall_mem_nil _
  obtain ⟨hrepresents, hkeyed⟩ := represents_run hparameters hbuilt hkeyed os
  have hbuilt : Built ((start {}).run os).points ((start {}).accepted os) := built_run hbuilt os
  exact ⟨hrepresents, hbuilt.nodup_keys, hbuilt.map_stored, fun _ => hbuilt.name_eq, hkeyed⟩

theorem run_append (s : Session) (os later : List Operation) :
    s.run (os ++ later) = (s.run os).run later :=
  List.foldl_append ..

theorem accepted_append (s : Session) (os later : List Operation) :
    s.accepted (os ++ later) = s.accepted os ++ (s.run os).accepted later := by
  induction os generalizing s with
  | nil => rfl
  | cons o os ih =>
    rw [List.cons_append, accepted, accepted, ih, List.append_assoc]
    rfl

theorem parameters_grow_run (s : Session) (os : List Operation) :
    s.parameters.Grows Parameter.Evolves (s.run os).parameters := by
  induction os generalizing s with
  | nil => exact .refl Parameter.Evolves.refl s.parameters
  | cons o os ih => exact (grows_perform s o).trans Parameter.Evolves.trans (ih _)

/-- Whatever is performed, the stores are coherent with what was declared and accepted, and
nothing in them is removed, moved or taken back later. -/
theorem run_coherent_grows (os later : List Operation) :
    ((start {}).run os).Coherent ((start {}).declared os) ((start {}).accepted os) ∧
      ((start {}).run os).Grows ((start {}).run (os ++ later)) := by
  have hcoherent := coherent_run os
  have hlater := coherent_run (os ++ later)
  refine ⟨hcoherent, ?_⟩
  constructor
  case parameters =>
    rw [run_append]
    exact parameters_grow_run _ later
  case points =>
    intro n e he
    have hstored : ((start {}).run (os ++ later)).points.entries.map (fun e => (e.1, e.2.stored))
        = ((start {}).run os).points.entries.map (fun e => (e.1, e.2.stored))
          ++ (((start {}).run os).accepted later).flatMap Declaration.contributes := by
      rw [hlater.points, hcoherent.points, accepted_append, List.flatMap_append]
    have hn : (((start {}).run (os ++ later)).points.entries.map
        (fun e => (e.1, e.2.stored)))[n]? = some (e.1, e.2.stored) := by
      obtain ⟨hlt, -⟩ := List.getElem?_eq_some_iff.mp he
      rw [hstored, List.getElem?_append_left (by simpa using hlt), List.getElem?_map, he]
      rfl
    rw [List.getElem?_map] at hn
    obtain ⟨⟨name, p⟩, he', heq⟩ := Option.map_eq_some_iff.mp hn
    obtain ⟨rfl, hp⟩ := Prod.mk.inj heq
    have hname : p.name = e.2.name :=
      (hlater.named _ (List.mem_of_getElem? he')).trans
        (hcoherent.named e (List.mem_of_getElem? he)).symm
    exact ⟨p, he', hname, hp⟩

/-- A clock with its reset is registered, and the width is assigned and declared once more. -/
def pairedRun : List Operation :=
  [ .register (.clockReset { clock := "ClkOut", reset := "ResetOut" }),
    .assign "WIDTH" (.number 12), .add (Showcase.natural "WIDTH" 16), .elaborate ]

theorem run_coherent_grows_widthRun :
    ((start {}).run widthRun).Coherent [Showcase.natural "WIDTH" 8]
        [.clock { name := "Clk" }, widthSink] ∧
      ((start {}).run widthRun).Grows ((start {}).run (widthRun ++ pairedRun)) ∧
      ((start {}).run (widthRun ++ pairedRun)).points.keys = ["Clk", "In", "ClkOut", "ResetOut"] ∧
      ((start {}).run (widthRun ++ pairedRun)).parameters.lookup "WIDTH" = some (.natural 12) := by
  have hdeclared : (start {}).declared widthRun = [Showcase.natural "WIDTH" 8] := by decide
  have haccepted : (start {}).accepted widthRun = [.clock { name := "Clk" }, widthSink] := by
    decide
  have h := run_coherent_grows widthRun pairedRun
  rw [hdeclared, haccepted] at h
  exact ⟨h.1, h.2, by decide, by decide⟩

end Session

end Interconnect
