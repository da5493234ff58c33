import Interconnect.Proofs.Blueprint
import Interconnect.Proofs.Validity.Endpoint
import Interconnect.Proofs.Validity.MemoryMapped

/-! # Valid declarations

Which conduits, clocks and resets are well formed, and so which points of all kinds are. A
blueprint resolves exactly when it is valid, and a declaration when all of its blueprints are.
-/

namespace Interconnect

open Parameter (Table)

namespace Conduit

open Reference (exists_denotes_ofNumber_iff)

variable {t : Table}

structure SignalDeclaration.Valid (t : Table) (d : SignalDeclaration) : Prop where
  direction : ∃ direction : Direction, Text.lower d.direction ∈ direction.names
  width : d.width.IsNumber t

def Declaration.Valid (t : Table) (d : Declaration) : Prop := ∀ s ∈ d.signals, s.Valid t

theorem Direction.exists_ofName?_iff {name : String} :
    (∃ direction, ofName? name = some direction) ↔
      ∃ direction : Direction, Text.lower name ∈ direction.names := by
  rw [← Option.isSome_iff_exists, ofName?, List.find?_isSome]
  constructor
  · rintro ⟨direction, -, h⟩; exact ⟨direction, List.contains_iff_mem.mp h⟩
  · rintro ⟨direction, h⟩
    exact ⟨direction, by cases direction <;> decide, List.contains_iff_mem.mpr h⟩

theorem ConduitSignal.exists_resolves_iff {d : SignalDeclaration} :
    (∃ s, ConduitSignal.Resolves t.environment d s) ↔ d.Valid t := by
  constructor
  · rintro ⟨_, hd, hw⟩
    exact ⟨Direction.exists_ofName?_iff.mp ⟨_, hd⟩, exists_denotes_ofNumber_iff.mp ⟨_, hw⟩⟩
  · rintro ⟨hd, hw⟩
    obtain ⟨_, hd⟩ := Direction.exists_ofName?_iff.mpr hd
    obtain ⟨_, hw⟩ := exists_denotes_ofNumber_iff.mpr hw
    exact ⟨_, .intro hd hw⟩

theorem exists_resolves_iff {d : Declaration} :
    (∃ c, Resolves t.environment d c) ↔ d.Valid t := by
  have hsignals : _ ↔ d.Valid t := exists_forall₂_iff (@ConduitSignal.exists_resolves_iff t)
  exact Iff.trans ⟨fun ⟨_, ⟨h⟩⟩ => ⟨_, h⟩, fun ⟨_, h⟩ => ⟨_, .intro h⟩⟩ hsignals

end Conduit

/-- A rate is a number of hertz or a text that reads as a frequency. -/
def Clock.Declaration.Valid (d : Clock.Declaration) : Prop :=
  ∀ raw ∈ d.rate, (∃ hz, raw = .number hz) ∨ ∃ s f, raw = .text s ∧ Frequency.parse? s = some f

def Reset.Declaration.Valid (d : Reset.Declaration) : Prop :=
  ∀ name ∈ d.edges, ∃ edges : Edges, Text.upper name = edges.render

theorem Clock.exists_resolve_iff {d : Clock.Declaration} :
    (∃ c, Clock.resolve d = .ok c) ↔ d.Valid := by
  obtain ⟨name, rate⟩ := d
  rcases rate with _ | b | hz | s
  · simp [Clock.resolve, Declaration.Valid]
  · simp [Clock.resolve, Declaration.Valid]
  · simp [Clock.resolve, Declaration.Valid]
  · cases hf : Frequency.parse? s <;> simp [Clock.resolve, Declaration.Valid, hf]

theorem Edges.exists_ofName?_iff {name : String} :
    (∃ edges, ofName? name = some edges) ↔ ∃ edges : Edges, Text.upper name = edges.render := by
  rw [← Option.isSome_iff_exists, ofName?, List.find?_isSome]
  constructor
  · rintro ⟨edges, -, h⟩; exact ⟨edges, (eq_of_beq h).symm⟩
  · rintro ⟨edges, h⟩
    exact ⟨edges, by cases edges <;> decide, beq_iff_eq.mpr h.symm⟩

theorem Reset.exists_resolve_iff {d : Reset.Declaration} :
    (∃ r, Reset.resolve d = .ok r) ↔ d.Valid := by
  obtain ⟨name, clock, edges⟩ := d
  cases edges with
  | none => simp [Reset.resolve, Declaration.Valid]
  | some edges =>
    have hvalid : Declaration.Valid ⟨name, clock, some edges⟩ ↔
        ∃ e, Edges.ofName? edges = some e := by
      simp [Declaration.Valid, Edges.exists_ofName?_iff]
    rw [hvalid]
    cases he : Edges.ofName? edges <;> simp [Reset.resolve, he]

/-- A point is well formed under the parameters of a table. -/
def Blueprint.Valid (t : Table) : Blueprint → Prop
  | clock d => d.Valid
  | reset d => d.Valid
  | endpoint _ d => d.Valid t
  | memoryMapped role d => d.Valid t role
  | conduit d => d.Valid t

/-- A point resolves exactly when its blueprint is valid. -/
theorem Blueprint.exists_resolve_iff {t : Table} {b : Blueprint} :
    (∃ p, b.resolve t.environment = .ok p) ↔ b.Valid t := by
  simp only [resolve_eq_ok_iff]
  cases b with
  | clock d =>
    exact Iff.trans ⟨fun ⟨_, .clock h⟩ => ⟨_, h⟩, fun ⟨_, h⟩ => ⟨_, .clock h⟩⟩
      Clock.exists_resolve_iff
  | reset d =>
    exact Iff.trans ⟨fun ⟨_, .reset h⟩ => ⟨_, h⟩, fun ⟨_, h⟩ => ⟨_, .reset h⟩⟩
      Reset.exists_resolve_iff
  | endpoint direction d =>
    exact Iff.trans ⟨fun ⟨_, .endpoint h⟩ => ⟨_, h⟩, fun ⟨_, h⟩ => ⟨_, .endpoint h⟩⟩
      Endpoint.exists_resolves_iff
  | memoryMapped role d =>
    exact Iff.trans ⟨fun ⟨_, .memoryMapped h⟩ => ⟨_, h⟩, fun ⟨_, h⟩ => ⟨_, .memoryMapped h⟩⟩
      MemoryMapped.exists_resolves_iff
  | conduit d =>
    exact Iff.trans ⟨fun ⟨_, .conduit h⟩ => ⟨_, h⟩, fun ⟨_, h⟩ => ⟨_, .conduit h⟩⟩
      Conduit.exists_resolves_iff

/-- A declaration is well formed when its points are; a clock with its reset needs both. -/
def Point.Declaration.Valid (t : Table) (d : Point.Declaration) : Prop :=
  ∀ b ∈ d.blueprints, b.Valid t

theorem Point.exists_ofDeclaration_iff {t : Table} {d : Point.Declaration} :
    (∃ ps, ofDeclaration t.environment d = .ok ps) ↔ d.Valid t := by
  simp only [ofDeclaration_eq, mapM_eq_ok_iff]
  exact exists_forall₂_iff fun _ => Blueprint.exists_resolve_iff

end Interconnect
