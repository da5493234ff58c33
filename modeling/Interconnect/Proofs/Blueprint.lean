import Interconnect.Registry
import Interconnect.Proofs.MemoryMapped
import Interconnect.Proofs.Conduit

/-! # Blueprints of connection points

A declaration stands for one blueprint of a point, or for two when it declares a clock
with its reset. A point keeps enough of its blueprint to be resolved again: a refresh of
a resolved point is a resolution of its blueprint, whatever the parameters were when the
point was resolved first.
-/

namespace Interconnect

open Parameter (Environment)

/-- What one connection point is resolved from. -/
inductive Blueprint where
  | clock (d : Clock.Declaration)
  | reset (d : Reset.Declaration)
  | endpoint (direction : Endpoint.Direction) (d : Endpoint.Declaration)
  | memoryMapped (role : MemoryMapped.Role) (d : MemoryMapped.Declaration)
  | conduit (d : Conduit.Declaration)

/-- The blueprints of the points of a declaration, in order. -/
def Point.Declaration.blueprints : Point.Declaration → List Blueprint
  | clock d => [.clock d]
  | reset d => [.reset d]
  | clockReset d => [.clock d.clockDeclaration, .reset d.resetDeclaration]
  | sink d => [.endpoint .sink d]
  | source d => [.endpoint .source d]
  | master d => [.memoryMapped .master d]
  | slave d => [.memoryMapped .slave d]
  | conduit d => [.conduit d]

/-- The resolved fields of a point. -/
def Point.fields : Point → List Field
  | clock _ => []
  | reset _ => []
  | endpoint _ r => r.fields
  | memoryMapped _ r => r.fields
  | conduit _ r => r.fields

theorem Clock.name_eq_of_resolve {d : Declaration} {c : Clock} (h : resolve d = .ok c) :
    c.name = d.name := by
  unfold resolve at h
  split at h
  · cases h; rfl
  · cases h; rfl
  · split at h <;> cases h
    rfl
  · cases h

theorem Reset.name_eq_of_resolve {d : Declaration} {r : Reset} (h : resolve d = .ok r) :
    r.name = d.name := by
  unfold resolve at h
  split at h
  · cases h; rfl
  · split at h <;> cases h
    rfl

namespace Blueprint

variable {env env' : Environment} {b : Blueprint} {p : Point}

def name : Blueprint → String
  | clock d => d.name
  | reset d => d.name
  | endpoint _ d => d.name
  | memoryMapped _ d => d.name
  | conduit d => d.name

/-- The point of a blueprint under the parameters. -/
def resolve (env : Environment) : Blueprint → Except Point.Error Point
  | clock d => Point.ofClock d
  | reset d => Point.ofReset d
  | endpoint direction d => Point.ofEndpoint env direction d
  | memoryMapped role d => Point.ofMemoryMapped env role d
  | conduit d => Point.ofConduit env d

/-- The fields that name a parameter, in order. -/
def symbols : Blueprint → List (String × String)
  | clock _ => []
  | reset _ => []
  | endpoint _ d => d.symbols
  | memoryMapped role d => d.symbols role
  | conduit d => d.symbols

/-- What the resolved fields come from. -/
def origins : Blueprint → List Origin
  | clock _ => []
  | reset _ => []
  | endpoint _ d => d.origins
  | memoryMapped role d => d.origins role
  | conduit d => d.origins

/-- The width of a burst is left to be computed. -/
def ComputesBurstWidth : Blueprint → Prop
  | memoryMapped _ d => d.ComputesBurstWidth
  | _ => False

/-- The point that a blueprint resolves to, by its kind. -/
inductive Resolves (env : Environment) : Blueprint → Point → Prop where
  | clock {d : Clock.Declaration} {r : Clock} : Clock.resolve d = .ok r →
      Resolves env (.clock d) (.clock r)
  | reset {d : Reset.Declaration} {r : Reset} : Reset.resolve d = .ok r →
      Resolves env (.reset d) (.reset r)
  | endpoint {direction : Endpoint.Direction} {d : Endpoint.Declaration} {r : Endpoint} :
      Endpoint.Resolves env direction d r → Resolves env (.endpoint direction d) (.endpoint d r)
  | memoryMapped {role : MemoryMapped.Role} {d : MemoryMapped.Declaration} {r : MemoryMapped} :
      MemoryMapped.Resolves env role d r → Resolves env (.memoryMapped role d) (.memoryMapped d r)
  | conduit {d : Conduit.Declaration} {r : Conduit} : Conduit.Resolves env d r →
      Resolves env (.conduit d) (.conduit d r)

theorem resolve_eq_ok_iff : b.resolve env = .ok p ↔ Resolves env b p := by
  constructor
  · intro h
    cases b with
    | clock d => obtain ⟨r, hr, rfl⟩ := map_eq_ok_iff.mp h; exact .clock hr
    | reset d => obtain ⟨r, hr, rfl⟩ := map_eq_ok_iff.mp h; exact .reset hr
    | endpoint direction d =>
      obtain ⟨r, hr, rfl⟩ := map_eq_ok_iff.mp h
      exact .endpoint (Endpoint.resolve_eq_ok_iff.mp hr)
    | memoryMapped role d =>
      obtain ⟨r, hr, rfl⟩ := map_eq_ok_iff.mp h
      exact .memoryMapped (MemoryMapped.resolve_eq_ok_iff.mp hr)
    | conduit d =>
      obtain ⟨r, hr, rfl⟩ := map_eq_ok_iff.mp h
      exact .conduit (Conduit.resolve_eq_ok_iff.mp hr)
  · rintro (h | h | h | h | h)
    · exact map_eq_ok_iff.mpr ⟨_, h, rfl⟩
    · exact map_eq_ok_iff.mpr ⟨_, h, rfl⟩
    · exact map_eq_ok_iff.mpr ⟨_, Endpoint.resolve_eq_ok_iff.mpr h, rfl⟩
    · exact map_eq_ok_iff.mpr ⟨_, MemoryMapped.resolve_eq_ok_iff.mpr h, rfl⟩
    · exact map_eq_ok_iff.mpr ⟨_, Conduit.resolve_eq_ok_iff.mpr h, rfl⟩

theorem Resolves.name_eq (h : Resolves env b p) : p.name = b.name := by
  cases h with
  | clock h => exact Clock.name_eq_of_resolve h
  | reset h => exact Reset.name_eq_of_resolve h
  | endpoint h | memoryMapped h | conduit h => cases h; rfl

/-- A point is resolved again as its blueprint is, under any parameters. -/
theorem Resolves.refresh_eq (h : Resolves env b p) (env' : Environment) :
    p.refresh env' = b.resolve env' := by
  cases h with
  | clock h => exact (map_eq_ok_iff.mpr ⟨_, h, rfl⟩).symm
  | reset h => exact (map_eq_ok_iff.mpr ⟨_, h, rfl⟩).symm
  | endpoint h | memoryMapped h | conduit h => cases h; rfl

theorem Resolves.symbolicFields_eq (h : Resolves env b p) : p.symbolicFields = b.symbols := by
  cases h with
  | clock | reset => rfl
  | endpoint h | memoryMapped h | conduit h => exact h.symbolicFields_eq

/-- Resolution reads no parameter but those of the symbolic fields. -/
theorem resolve_congr (h : AgreeOn b.symbols env env') : b.resolve env = b.resolve env' := by
  cases b with
  | clock | reset => rfl
  | endpoint direction d => exact congrArg (Except.map _) (Endpoint.resolve_congr h)
  | memoryMapped role d => exact congrArg (Except.map _) (MemoryMapped.resolve_congr h)
  | conduit d => exact congrArg (Except.map _) (Conduit.resolve_congr h)

theorem Resolves.yields (h : Resolves env b p) :
    List.Forall₂ (Origin.Yields env) b.origins p.fields := by
  cases h with
  | clock | reset => exact .nil
  | endpoint h | memoryMapped h | conduit h => exact h.yields

theorem computesBurstWidth_of_isComputed {o : Origin} (h : o ∈ b.origins) (hc : o.IsComputed) :
    b.ComputesBurstWidth ∧ o.label = "burst width" := by
  cases b with
  | clock | reset => cases h
  | endpoint => exact absurd hc (Endpoint.Declaration.not_isComputed h)
  | memoryMapped => exact MemoryMapped.Declaration.computesBurstWidth_of_isComputed h hc
  | conduit => exact absurd hc (Conduit.Declaration.not_isComputed h)

end Blueprint

namespace Point

theorem Declaration.map_name_blueprints (d : Declaration) :
    d.blueprints.map Blueprint.name = d.names := by
  cases d <;> rfl

theorem ofDeclaration_eq (env : Environment) (d : Declaration) :
    ofDeclaration env d = d.blueprints.mapM (Blueprint.resolve env) := by
  cases d with
  | clockReset d =>
    simp only [ofDeclaration, Declaration.blueprints, List.mapM_cons, List.mapM_nil,
      Blueprint.resolve]
    cases ofClock d.clockDeclaration with
    | error => rfl
    | ok => cases ofReset d.resetDeclaration <;> rfl
  | clock | reset | sink | source | master | slave | conduit => exact (mapM_singleton _ _).symm

end Point

end Interconnect
