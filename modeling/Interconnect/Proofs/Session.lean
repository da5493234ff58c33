import Interconnect.Showcase
import Interconnect.Proofs.Rebuild

/-! # Sessions

A session holds a table of parameters and a registry that is resolved against it. Its
operations come in any order, and each may fail. Whatever the history, the registry is
built from the declarations that were accepted, and so a refresh at the end rebuilds it
from them.
-/

namespace Interconnect

open Parameter (Overrides Table)
open Point (Declaration Error)

structure Session where
  parameters : Table
  points : Registry

namespace Session

/-- What a host can do with the table or with the registry. -/
inductive Operation where
  | add (d : Parameter.Declaration)
  | addHeading (name : String)
  | assign (name : String) (raw : Scalar)
  | applyOverrides (overrides : Overrides)
  | markConsumed (name : String)
  | register (d : Declaration)
  | refresh
  | elaborate

/-- A session without points. -/
def start (t : Table) : Session := ⟨t, {}⟩

/-- An operation on the table leaves the registry as it is. -/
def onParameters (s : Session) (o : Outcome Table Parameter.Error Unit) :
    Outcome Session Error (List Binding) :=
  ⟨{ s with parameters := o.state }, (o.answer.mapError .parameter).map fun _ => []⟩

/-- An operation on the registry leaves the table as it is. -/
def onPoints (s : Session) (o : Outcome Registry Error Unit) :
    Outcome Session Error (List Binding) :=
  ⟨{ s with points := o.state }, o.answer.map fun _ => []⟩

/-- Performs an operation. Only an elaboration answers with bindings. -/
def perform (s : Session) : Operation → Outcome Session Error (List Binding)
  | .add d => s.onParameters (s.parameters.add d)
  | .addHeading name => s.onParameters (s.parameters.addHeading name)
  | .assign name raw => s.onParameters (s.parameters.update name raw)
  | .applyOverrides overrides => s.onParameters (s.parameters.applyOverrides overrides)
  | .markConsumed name => s.onParameters (s.parameters.markConsumed name)
  | .register d => s.onPoints (s.points.register s.parameters.environment d)
  | .refresh => s.onPoints (s.points.refresh s.parameters.environment)
  | .elaborate => (s.points.elaborate s.parameters).mapState fun (points, parameters) =>
      { parameters, points }

/-- The session after a list of operations, of which any may have failed. -/
def run (s : Session) (os : List Operation) : Session :=
  os.foldl (fun s o => (s.perform o).state) s

/-- The declaration that an operation registers, when it succeeds. -/
def accepts (s : Session) : Operation → List Declaration
  | .register d =>
    match (s.perform (.register d)).answer with
    | .ok _ => [d]
    | .error _ => []
  | _ => []

/-- The declarations that a list of operations registers, in order. -/
def accepted (s : Session) : List Operation → List Declaration
  | [] => []
  | o :: os => s.accepts o ++ (s.perform o).state.accepted os

open Registry (Built)

variable {s : Session} {ds : List Declaration}

/-- An operation keeps the registry built, from one declaration more when it accepts one. -/
theorem built_perform (h : Built s.points ds) (o : Operation) :
    Built (s.perform o).state.points (ds ++ s.accepts o) := by
  cases o with
  | register d =>
    have hstate : (s.perform (.register d)).state.points
        = (s.points.register s.parameters.environment d).state := rfl
    rw [hstate, accepts]
    cases hd : (s.points.register s.parameters.environment d).answer with
    | error e =>
      rw [Registry.state_register_of_error hd]
      simpa [perform, onPoints, hd, Except.map] using h
    | ok =>
      simpa [perform, onPoints, hd, Except.map] using h.register hd
  | refresh =>
    simp only [accepts, List.append_nil]
    exact h.refresh
  | elaborate =>
    have hstate := Registry.elaborate_state_fst s.points s.parameters
    simp only [accepts, List.append_nil]
    change Built (s.points.elaborate s.parameters).state.1 ds
    rw [hstate]
    exact h.refresh
  | add | addHeading | assign | applyOverrides | markConsumed =>
    simp only [accepts, List.append_nil]
    exact h

theorem built_run (h : Built s.points ds) (os : List Operation) :
    Built (s.run os).points (ds ++ s.accepted os) := by
  induction os generalizing s ds with
  | nil => rwa [accepted, List.append_nil]
  | cons o os ih =>
    rw [accepted, ← List.append_assoc]
    exact ih (built_perform h o)

/-- A refresh of the registry does what a rebuild from declarations does. -/
structure RefreshesAs (s : Session) (ds : List Declaration) : Prop where
  keys : s.points.keys = ds.flatMap Declaration.names
  rebuilt : ∀ r, Registry.ofDeclarations s.parameters.environment ds = .ok r →
    s.points.refresh s.parameters.environment = .succeed r ()
  refused : ∀ e, Registry.ofDeclarations s.parameters.environment ds = .error e →
    s.points.refresh s.parameters.environment = .fail s.points e
  first : ∀ e, Registry.ofDeclarations s.parameters.environment ds = .error e ↔
    ∃ before b after, ds.flatMap Declaration.blueprints = before ++ b :: after ∧
      (∀ c ∈ before, ∃ p, c.resolve s.parameters.environment = .ok p) ∧
      b.resolve s.parameters.environment = .error e

/-- After any operations, a refresh is a rebuild from the declarations that were accepted.
Where the rebuild fails, the error is that of the first point that does not resolve, and the
registry stays as it is. -/
theorem run_refreshesAs (t : Table) (os : List Operation) :
    ((start t).run os).RefreshesAs ((start t).accepted os) := by
  have hstart : Built (start t).points [] := Registry.Built.nil
  have hbuilt : Built ((start t).run os).points ((start t).accepted os) := built_run hstart os
  constructor
  case keys => exact hbuilt.keys_eq
  case rebuilt => intro r hr; rw [hbuilt.refresh_eq, hr]; rfl
  case refused => intro e he; rw [hbuilt.refresh_eq, he]; rfl
  case first => exact fun _ => Registry.ofDeclarations_eq_error_iff hbuilt.nodup

/-- A sink whose width is a parameter. -/
def widthSink : Declaration :=
  .sink
    { name := "In", clock := "Clk", reset := "Reset"
      data := { name := "D", width := .text "WIDTH" } }

/-- The sink is refused until its width is declared, and its name is taken only once. The width
of no bits that is assigned at last does not pass a refresh. -/
def widthRun : List Operation :=
  [ .register (.clock { name := "Clk" }), .register widthSink,
    .add (Showcase.natural "WIDTH" 8), .register widthSink,
    .assign "WIDTH" (.number 0), .refresh, .register (.clock { name := "In" }) ]

theorem run_refreshesAs_widthRun :
    (start {}).accepted widthRun = [.clock { name := "Clk" }, widthSink] ∧
      ((start {}).run widthRun).RefreshesAs [.clock { name := "Clk" }, widthSink] ∧
      ((start {}).run widthRun).points.refresh ((start {}).run widthRun).parameters.environment
        = .fail ((start {}).run widthRun).points
            (.invalidWidth "In" "data width" "0 (WIDTH)") := by
  have haccepted : (start {}).accepted widthRun = [.clock { name := "Clk" }, widthSink] := by
    decide
  have hrefreshes := run_refreshesAs {} widthRun
  rw [haccepted] at hrefreshes
  exact ⟨haccepted, hrefreshes, hrefreshes.refused _ rfl⟩

end Session

end Interconnect
