import Interconnect.Interface
import Interconnect.Proofs.Marks
import Interconnect.Proofs.Representation

/-! # Replaying the updates of an interface

The host updates an interface and elaborates it, in any order. Updates that fail change
nothing, and an elaboration changes nothing but the marks of the parameters that it
consumes. The interface at the end is therefore the one that its description resolves to
when the updates that succeeded follow the overrides it was resolved with.
-/

namespace Interconnect

open Parameter (Overrides Table)

namespace Interface

open Description (Error)

/-- What a host can do with a resolved interface. -/
inductive Operation where
  | update (overrides : Overrides)
  | elaborate

/-- The interface after an operation, whether it succeeds or not. -/
def step (i : Interface) : Operation → Interface
  | .update overrides => (i.update overrides).state
  | .elaborate => i.elaborate.state

/-- The overrides that an operation applies: those of an update that succeeds. -/
def applies (i : Interface) : Operation → Overrides
  | .update overrides =>
    match (i.update overrides).answer with
    | .ok () => overrides
    | .error _ => []
  | .elaborate => []

def run (i : Interface) (ops : List Operation) : Interface := ops.foldl step i

/-- The overrides that the operations of a run apply, in order. -/
def applied (i : Interface) : List Operation → Overrides
  | [] => []
  | op :: ops => i.applies op ++ (i.step op).applied ops

/-- An interface as if no elaboration had read its parameters. -/
def unmarked (i : Interface) : Interface := { i with parameters := i.parameters.unmarked }

variable {d : Description} {host overrides : Overrides} {i : Interface}

theorem resolve_eq_ok_iff : resolve d host = .ok i ↔
    ∃ declared described, Table.ofDeclarations d.parameters = .ok declared ∧
      (declared.applyOverrides d.overrides).toExcept = .ok described ∧
      (described.applyOverrides host).toExcept = .ok i.parameters ∧
      Registry.ofDeclarations i.parameters.environment d.points = .ok i.points ∧
      d.component = i.component := by
  simp only [resolve, bind_eq_ok_iff, mapError_eq_ok_iff]
  constructor
  · rintro ⟨declared, hd, described, hs, t, ht, r, hr, he⟩
    cases he
    exact ⟨declared, described, hd, hs, ht, hr, rfl⟩
  · rintro ⟨declared, described, hd, hs, ht, hr, hc⟩
    refine ⟨declared, hd, described, hs, _, ht, _, hr, ?_⟩
    rw [hc]
    rfl

theorem update_of_ok (h : (i.update overrides).answer = .ok ()) :
    ∃ t r, (i.parameters.applyOverrides overrides).toExcept = .ok t ∧
      (i.points.refresh t.environment).toExcept = .ok r ∧
      (i.update overrides).state = { i with parameters := t, points := r } := by
  obtain ⟨j, hj, hstate⟩ := Outcome.exists_of_answer_commit h
  simp only [bind_eq_ok_iff, mapError_eq_ok_iff] at hj
  obtain ⟨t, ht, r, hr, he⟩ := hj
  cases he
  exact ⟨t, r, ht, hr, hstate⟩

theorem update_of_ofDeclarations {t : Table} {r : Registry}
    (hbuilt : Registry.Built i.points d.points)
    (ht : (i.parameters.applyOverrides overrides).toExcept = .ok t)
    (hr : Registry.ofDeclarations t.environment d.points = .ok r) :
    i.update overrides = .succeed { i with parameters := t, points := r } () := by
  have hrefresh : (i.points.refresh t.environment).toExcept = .ok r := by
    rw [hbuilt.toExcept_refresh, hr]
  simp only [update, ht, Except.mapError, bind, Except.bind, hrefresh]
  rfl

theorem ofDeclarations_of_resolve (h : resolve d host = .ok i.unmarked) :
    Registry.ofDeclarations i.parameters.environment d.points = .ok i.points := by
  obtain ⟨-, -, -, -, -, hpoints, -⟩ := resolve_eq_ok_iff.mp h
  rwa [unmarked, Table.environment_unmarked] at hpoints

/-- The invariant of a run: an update that succeeds appends its overrides to those of the
host. -/
theorem resolve_update (h : resolve d host = .ok i.unmarked)
    (hok : (i.update overrides).answer = .ok ()) :
    resolve d (host ++ overrides) = .ok (i.update overrides).state.unmarked := by
  obtain ⟨t, r, ht, hr, hstate⟩ := update_of_ok hok
  obtain ⟨declared, described, hdeclared, hdescribed, hp, -, hc⟩ := resolve_eq_ok_iff.mp h
  have hparameters : (described.applyOverrides (host ++ overrides)).toExcept = .ok t.unmarked := by
    calc (described.applyOverrides (host ++ overrides)).toExcept
        = (i.parameters.unmarked.applyOverrides overrides).toExcept :=
          Outcome.toExcept_forEach_append hp overrides
      _ = (i.parameters.applyOverrides overrides).toExcept.map Table.unmarked := by
          rw [Table.applyOverrides_unmarked, Outcome.toExcept_mapState]
      _ = .ok t.unmarked := by rw [ht]; rfl
  have hrebuilt : Registry.ofDeclarations t.unmarked.environment d.points = .ok r := by
    -- The points may be stale, but they were built from the declarations of the description.
    have hbuilt : Registry.Built i.points d.points :=
      Registry.built_of_ofDeclarations (ofDeclarations_of_resolve h)
    rw [Table.environment_unmarked, ← hbuilt.toExcept_refresh, hr]
  rw [hstate, resolve_eq_ok_iff]
  exact ⟨declared, described, hdeclared, hdescribed, hparameters, hrebuilt, hc⟩

theorem state_update_of_error {e : Error} (h : (i.update overrides).answer = .error e) :
    (i.update overrides).state = i :=
  Outcome.state_commit_of_error h

theorem unmarked_elaborate (h : resolve d host = .ok i.unmarked) :
    i.elaborate.state.unmarked = i.unmarked := by
  have hpoints := ofDeclarations_of_resolve h
  have hbuilt : Registry.Built i.points d.points := Registry.built_of_ofDeclarations hpoints
  have hrefresh : (i.points.elaborate i.parameters).state.1 = i.points := by
    rw [Registry.elaborate_state_fst, hbuilt.refresh_eq, hpoints]
    rfl
  have hmarks : (i.points.elaborate i.parameters).state.2.unmarked = i.parameters.unmarked :=
    Registry.unmarked_elaborate i.points i.parameters
  have hstate : i.elaborate.state.unmarked =
      { i with
        parameters := (i.points.elaborate i.parameters).state.2.unmarked
        points := (i.points.elaborate i.parameters).state.1 } := rfl
  rw [hstate, hrefresh, hmarks]
  rfl

theorem resolve_applies (h : resolve d host = .ok i.unmarked) (op : Operation) :
    resolve d (host ++ i.applies op) = .ok (i.step op).unmarked := by
  cases op with
  | update overrides =>
    rw [applies, step]
    cases hok : (i.update overrides).answer with
    | ok => exact resolve_update h hok
    | error e =>
      rw [state_update_of_error hok]
      simpa using h
  | elaborate =>
    rw [applies, step, List.append_nil, unmarked_elaborate h]
    exact h

theorem resolve_applied_unmarked (h : resolve d host = .ok i.unmarked) (ops : List Operation) :
    resolve d (host ++ i.applied ops) = .ok (i.run ops).unmarked := by
  induction ops generalizing i host with
  | nil => rwa [applied, List.append_nil]
  | cons op ops ih =>
    rw [applied, ← List.append_assoc]
    exact ih (resolve_applies h op)

theorem unmarked_of_resolve (h : resolve d host = .ok i) : i.unmarked = i := by
  obtain ⟨declared, described, hdeclared, hdescribed, hp, -, -⟩ := resolve_eq_ok_iff.mp h
  have ht := Table.unmarked_of_ofDeclarations hdeclared
  have ht := Table.unmarked_of_applyOverrides ht hdescribed
  have ht := Table.unmarked_of_applyOverrides ht hp
  rw [unmarked, ht]

theorem resolve_unmarked (h : resolve d host = .ok i) : resolve d host = .ok i.unmarked := by
  rw [unmarked_of_resolve h]
  exact h

/-- At every point of a run the connection points are those that the declarations resolve to. -/
theorem ofDeclarations_run (h : resolve d host = .ok i) (ops : List Operation) :
    Registry.ofDeclarations (i.run ops).parameters.environment d.points = .ok (i.run ops).points :=
  ofDeclarations_of_resolve (resolve_applied_unmarked (resolve_unmarked h) ops)

/-- Updates and elaborations, some of which may fail, lead to the interface that the
description resolves to with the overrides of the updates that succeeded, but for the marks
of the parameters that were consumed. -/
theorem resolve_applied (h : resolve d host = .ok i) (ops : List Operation) :
    resolve d (host ++ i.applied ops) = .ok (i.run ops).unmarked := by
  apply resolve_applied_unmarked
  rw [unmarked_of_resolve h]
  exact h

/-- A sink that waits for the mode of its handshake. -/
def pendingSink : Description where
  component := Showcase.component
  parameters := [Showcase.natural "WIDTH" 8, { Showcase.text "MODE" "later" with derived := true }]
  points := [.sink Point.exampleSink]
  overrides := [("WIDTH", .number 16)]

/-- A run in which the host supplies the mode; two of its updates fail. -/
def pendingRun : List Operation :=
  [ .elaborate,
    .update [("WIDTH", .number 32), ("DEPTH", .number 1)],
    .update [("MODE", .text "NO_READY")],
    .elaborate,
    .update [("WIDTH", .number 0)],
    .update [("WIDTH", .text "40")] ]

theorem resolve_applied_pendingSink :
    ∃ i, resolve pendingSink [("WIDTH", .number 24)] = .ok i ∧
      i.applied pendingRun = [("MODE", .text "NO_READY"), ("WIDTH", .text "40")] ∧
      resolve pendingSink ([("WIDTH", .number 24)] ++ i.applied pendingRun)
        = .ok (i.run pendingRun).unmarked :=
  ⟨_, rfl, rfl, resolve_applied rfl pendingRun⟩

end Interface

end Interconnect
