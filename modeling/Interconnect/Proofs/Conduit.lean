import Interconnect.Point.Conduit
import Interconnect.Proofs.Field

/-! # How conduits resolve

A conduit resolves signal by signal. A signal resolves when its direction is known and
its width denotes a number, and the width is its only field that can be symbolic.
-/

namespace Interconnect.Conduit

open Parameter (Environment Value)
open Reference (ofNumber)

variable {env env' : Environment} {point : String}

inductive ConduitSignal.Resolves (env : Environment) (d : SignalDeclaration) :
    ConduitSignal → Prop where
  | intro {direction : Direction} {width : Resolved UInt64} :
      Direction.ofName? d.direction = some direction →
      (ofNumber d.width).Denotes env Value.natural? width →
      Resolves env d ⟨d.name, direction, width⟩

/-- The conduit that a declaration resolves to. -/
inductive Resolves (env : Environment) (d : Declaration) : Conduit → Prop where
  | intro {signals : List ConduitSignal} :
      List.Forall₂ (ConduitSignal.Resolves env) d.signals signals →
      Resolves env d ⟨d.name, d.clock, d.reset, signals⟩

theorem ConduitSignal.resolve_eq_ok_iff {d : SignalDeclaration} {s : ConduitSignal} :
    ConduitSignal.resolve env point d = .ok s ↔ ConduitSignal.Resolves env d s := by
  unfold ConduitSignal.resolve
  split
  next hd =>
    constructor
    · intro h; cases h
    · rintro ⟨hd', -⟩; rw [hd] at hd'; cases hd'
  next direction hd =>
    simp only [bind_eq_ok_iff, Resolved.orElse_natural?_eq_ok_iff, Except.ok.injEq]
    constructor
    · rintro ⟨_, h, rfl⟩; exact .intro hd h
    · rintro ⟨hd', h⟩
      obtain rfl := Option.some.inj (hd.symm.trans hd')
      exact ⟨_, h, rfl⟩

theorem resolve_eq_ok_iff {d : Declaration} {c : Conduit} :
    resolve env d = .ok c ↔ Resolves env d c := by
  simp only [resolve, bind_eq_ok_iff, mapM_eq_ok_iff, ConduitSignal.resolve_eq_ok_iff,
    Except.ok.injEq]
  constructor
  · rintro ⟨_, h, rfl⟩; exact .intro h
  · rintro ⟨h⟩; exact ⟨_, h, rfl⟩

/-- The signals of a declaration whose width names a parameter, in order. -/
def Declaration.symbols (d : Declaration) : List (String × String) :=
  d.signals.flatMap fun s => (ofNumber s.width).symbols s.name

theorem ConduitSignal.Resolves.symbolic_eq {d : SignalDeclaration} {s : ConduitSignal}
    (h : ConduitSignal.Resolves env d s) :
    s.width.symbolic s.name = (ofNumber d.width).symbols d.name := by
  cases h with
  | intro _ h => exact h.symbolic_eq

theorem Resolves.symbolicFields_eq {d : Declaration} {c : Conduit} (h : Resolves env d c) :
    c.symbolicFields = d.symbols := by
  obtain ⟨h⟩ := h
  exact flatMap_eq_of_forall₂ h fun _ _ hs => hs.symbolic_eq

theorem ConduitSignal.resolve_congr {d : SignalDeclaration}
    (h : AgreeOn ((ofNumber d.width).symbols d.name) env env') :
    ConduitSignal.resolve env point d = ConduitSignal.resolve env' point d := by
  simp only [ConduitSignal.resolve, Resolved.natural?_congr h]

theorem resolve_congr {d : Declaration} (h : AgreeOn d.symbols env env') :
    resolve env d = resolve env' d := by
  have hsignals : d.signals.mapM (ConduitSignal.resolve env d.name)
      = d.signals.mapM (ConduitSignal.resolve env' d.name) := by
    apply mapM_eq_mapM_of_forall₂
    rw [List.forall₂_same]
    intro s hs
    exact ConduitSignal.resolve_congr (agreeOn_flatMap.mp h s hs)
  simp only [resolve, hsignals]

/-- The resolved fields of a conduit. -/
def fields (c : Conduit) : List Field :=
  c.signals.map fun s => .number s.name s.width

/-- What the fields of the conduit come from. -/
def Declaration.origins (d : Declaration) : List Origin :=
  d.signals.map fun s => .number s.name (ofNumber s.width)

theorem Resolves.yields {d : Declaration} {c : Conduit} (h : Resolves env d c) :
    List.Forall₂ (Origin.Yields env) d.origins c.fields := by
  obtain ⟨h⟩ := h
  refine List.forall₂_map_left_iff.mpr (List.forall₂_map_right_iff.mpr (h.imp ?_))
  rintro _ _ ⟨-, hw⟩
  exact .number hw

theorem Declaration.not_isComputed {d : Declaration} {o : Origin} (h : o ∈ d.origins) :
    ¬ o.IsComputed := by
  obtain ⟨_, _, rfl⟩ := List.mem_map.mp h
  exact not_false

end Interconnect.Conduit
