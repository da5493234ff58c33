import Interconnect.Proofs.Assignment
import Interconnect.Proofs.History
import Interconnect.Proofs.Symbols
import Interconnect.Proofs.Validity.Point

/-! # The life of a handshake

A symbolic handshake is in step with its parameter at every point of a run. It is pending
while the parameter is derived, waits for the host and names no mode, and has the mode that
the parameter names otherwise. Once the host has assigned the parameter the handshake is never
pending again, whatever comes later.
-/

namespace Interconnect

open Endpoint (Mode)
open Parameter (Overrides Table)
open Point (Declaration)

/-- The parameter holds a text that is the name of the mode, in any case of its letters. -/
def Parameter.Holds (p : Parameter) (mode : Mode) : Prop :=
  ∃ text, p.value = .text text ∧ Text.upper text = Text.upper mode.render

theorem Parameter.holds_iff {p : Parameter} {mode : Mode} :
    p.Holds mode ↔ p.value.text?.bind Mode.ofName? = some mode := by
  simp only [Holds, Option.bind_eq_some_iff, Value.text?_eq_some_iff, Mode.ofName?_eq_some_iff]

/-- The handshake is in step with the parameter that its key names. -/
structure Endpoint.Handshake.Follows (h : Handshake) (p : Parameter) : Prop where
  pending_iff : h.mode = none ↔
    p.derived = true ∧ p.supplied = false ∧ ∀ mode, ¬ p.Holds mode
  named : ∀ mode, h.mode = some mode → p.Holds mode

namespace Registry

variable {t : Table} {ds : List Declaration} {r : Registry} {name key : String}
  {d : Endpoint.Declaration} {e : Endpoint}

theorem exists_follows (hr : ofDeclarations t.environment ds = .ok r)
    (he : (name, .endpoint d e) ∈ r.entries) (hk : e.handshake.key = some key) :
    ∃ p, t.get? key = some p ∧ e.handshake.Follows p := by
  obtain ⟨b, -, hb, -⟩ := (mem_entries_iff_of_ofDeclarations hr).mp he
  cases hb with
  | endpoint hb =>
    obtain ⟨_, hreading, hmode, hwaits⟩ := hb.handshake.follows hk
    obtain ⟨p, hp, rfl⟩ := Option.map_eq_some_iff.mp hreading
    have hnamed (mode : Mode) : e.handshake.mode = some mode ↔ p.Holds mode := by
      rw [hmode, Parameter.holds_iff]
      rfl
    refine ⟨p, hp, ?_⟩
    constructor
    case named => exact fun mode => (hnamed mode).mp
    case pending_iff =>
      constructor
      · intro hnone
        obtain ⟨hd, hs⟩ := hwaits hnone
        refine ⟨hd, hs, fun mode hm => ?_⟩
        rw [(hnamed mode).mpr hm] at hnone
        cases hnone
      · rintro ⟨-, -, hnone⟩
        exact Option.eq_none_iff_forall_ne_some.mpr fun mode hm =>
          hnone mode ((hnamed mode).mp hm)

theorem exists_endpoint_of_mem {t' : Table} {r' : Registry}
    (hr : ofDeclarations t.environment ds = .ok r)
    (hr' : ofDeclarations t'.environment ds = .ok r')
    (he : (name, .endpoint d e) ∈ r.entries) :
    ∃ e', r'.get? name = some (.endpoint d e') ∧ e'.handshake.key = e.handshake.key := by
  obtain ⟨b, hb, hresolves, rfl⟩ := (mem_entries_iff_of_ofDeclarations hr).mp he
  obtain ⟨p', hresolves', hmem⟩ := exists_mem_entries_of_ofDeclarations hr' hb
  have hnodup : r'.keys.Nodup := (built_of_ofDeclarations hr').nodup_keys
  have hget : r'.get? b.name = some p' := (Dictionary.get?_eq_some_iff hnodup).mpr hmem
  cases hresolves with
  | endpoint h =>
    cases hresolves' with
    | endpoint h' => exact ⟨_, hget, h'.handshake.key_congr h.handshake⟩

theorem exists_endpoint_follows {t' : Table} {r' : Registry}
    (hr : ofDeclarations t.environment ds = .ok r)
    (hr' : ofDeclarations t'.environment ds = .ok r')
    (he : (name, .endpoint d e) ∈ r.entries) (hk : e.handshake.key = some key) :
    ∃ e' p, r'.get? name = some (.endpoint d e') ∧ e'.handshake.key = some key ∧
      t'.get? key = some p ∧ e'.handshake.Follows p := by
  obtain ⟨e', he', hkey⟩ := exists_endpoint_of_mem hr hr' he
  have hk' : e'.handshake.key = some key := hkey.trans hk
  obtain ⟨p, hp, hfollows⟩ := exists_follows hr' (Dictionary.mem_entries_of_get? he') hk'
  exact ⟨e', p, he', hk', hp, hfollows⟩

end Registry

namespace Interface

variable {d : Description} {host : Overrides} {i : Interface} {name key : String}
  {sd : Endpoint.Declaration} {e : Endpoint}

/-- Once an override has named its parameter an endpoint is not pending in any later state. -/
theorem exists_settled_run (h : resolve d host = .ok i) {ops : List Operation}
    (he : (name, .endpoint sd e) ∈ (i.run ops).points.entries)
    (hk : e.handshake.key = some key)
    (hnamed : key ∈ (d.overrides ++ host ++ i.applied ops).map Prod.fst)
    (later : List Operation) :
    ∃ e', (i.run (ops ++ later)).points.get? name = some (.endpoint sd e') ∧
      e'.handshake.key = some key ∧ e'.handshake.mode.isSome := by
  obtain ⟨e', p, he', hk', hp, hfollows⟩ := Registry.exists_endpoint_follows
    (ofDeclarations_run h ops) (ofDeclarations_run h (ops ++ later)) he hk
  refine ⟨e', he', hk', Option.isSome_iff_ne_none.mpr fun hnone => ?_⟩
  obtain ⟨hd, hs, -⟩ := hfollows.pending_iff.mp hnone
  have hanswered : p.supplied = true := answered_run h hnamed later p hp hd
  exact nomatch hs.symm.trans hanswered

/-- In every state of a run a symbolic handshake follows its parameter. Once the parameter is
named by an override of the description, of the host or of an update that succeeded, the
endpoint is not pending, nor is it in any later state. -/
theorem handshake_follows (h : resolve d host = .ok i) (ops : List Operation)
    (he : (name, .endpoint sd e) ∈ (i.run ops).points.entries)
    (hk : e.handshake.key = some key) :
    (∃ p, (i.run ops).parameters.get? key = some p ∧ e.handshake.Follows p) ∧
      (key ∈ (d.overrides ++ host ++ i.applied ops).map Prod.fst → ∀ later,
        ∃ e', (i.run (ops ++ later)).points.get? name = some (.endpoint sd e') ∧
          e'.handshake.key = some key ∧ e'.handshake.mode.isSome) :=
  ⟨Registry.exists_follows (ofDeclarations_run h ops) he hk, exists_settled_run h he hk⟩

theorem handshake_follows_pendingSink :
    ∃ i e, resolve pendingSink [] = .ok i ∧
      ("In", .endpoint Point.exampleSink e) ∈ (i.run pendingRun).points.entries ∧
      e.handshake.key = some "MODE" ∧
      (∃ p, (i.run pendingRun).parameters.get? "MODE" = some p ∧ e.handshake.Follows p) ∧
      "MODE" ∈ (pendingSink.overrides ++ [] ++ i.applied pendingRun).map Prod.fst ∧
      ∀ later, ∃ e',
        (i.run (pendingRun ++ later)).points.get? "In" = some (.endpoint Point.exampleSink e') ∧
          e'.handshake.key = some "MODE" ∧ e'.handshake.mode.isSome :=
  have resolved : resolve pendingSink [] = .ok _ := rfl
  have follows := handshake_follows resolved pendingRun (.head _) rfl
  have supplied : "MODE" ∈ (pendingSink.overrides ++ [] ++ _).map Prod.fst :=
    .tail _ (.head _)
  ⟨_, _, resolved, .head _, rfl, follows.1, supplied, follows.2 supplied⟩

end Interface

end Interconnect
