import Interconnect.Proofs.Lifecycle
import Interconnect.Proofs.Monotone

/-! # Completing a pending handshake

A host completes a pending handshake by assigning the name of a mode to its parameter. No
other field reads a text, so the points stay valid when a text parameter gets one, and the
host can choose any mode. A parameter of another kind cannot hold a name. When it is derived
its handshake is accepted as pending nevertheless, and stays pending whatever the host does.
-/

namespace Interconnect

open Endpoint (Handshake Mode)
open Parameter (Overrides Table)

namespace Parameter.Table

variable {t : Table} {key : String} {p : Parameter}

theorem update_text (hp : t.get? key = some p) (hkind : p.kind = .text) (s : String) :
    t.update key (.text s) = .succeed (t.modify key (·.assign (.text s))) () := by
  simp only [update, hp, hkind]
  rfl

/-- A mode assigned to a text parameter changes nothing that a field can read, but that
handshakes can read the parameter now. -/
theorem keepsReadable_modify (ht : t.WellTyped) (hp : t.get? key = some p)
    (hkind : p.kind = .text) (mode : Mode) :
    t.KeepsReadable (t.modify key (·.assign (.text mode.render))) := by
  have hother {name : String} (hne : name ≠ key) :
      Dictionary.get? (t.modify key (·.assign (.text mode.render))) name = t.get? name := by
    rw [Dictionary.get?_modify]
    simp [hne]
  have hvalue {name : String} {v : Value} (hv : t.lookup name = some v) (hnot : v.kind ≠ .text) :
      lookup (t.modify key (·.assign (.text mode.render))) name = some v := by
    have hne : name ≠ key := by
      rintro rfl
      obtain ⟨q, hq, rfl⟩ := Option.map_eq_some_iff.mp hv
      obtain rfl := Option.some.inj (hp.symm.trans hq)
      exact hnot ((ht name p hp).trans hkind)
    rw [lookup, hother hne]
    exact hv
  constructor
  case natural => exact fun name n hv => hvalue hv (by simp [Value.kind])
  case boolean => exact fun name b hv => hvalue hv (by simp [Value.kind])
  case handshake =>
    intro name hvalid
    by_cases hname : name = some key
    · subst hname
      have hget : Dictionary.get? (t.modify key (·.assign (.text mode.render))) key
          = some (p.assign (.text mode.render)) := by
        rw [Dictionary.get?_modify, hp]
        simp
      exact .parameter mode hget rfl rfl
    · cases hvalid with
      | absent => exact .absent
      | mode m hm => exact .mode m hm
      | parameter m hq hv hm =>
        exact .parameter m ((hother fun he => hname (congrArg some he)).trans hq) hv hm
      | pending hq hd hs =>
        exact .pending ((hother fun he => hname (congrArg some he)).trans hq) hd hs

end Parameter.Table

theorem Endpoint.Handshake.Follows.mode_eq {h : Handshake} {p : Parameter} {mode : Mode}
    (hf : h.Follows p) (hm : p.Holds mode) : h.mode = some mode := by
  cases hmode : h.mode with
  | none => exact absurd hm ((hf.pending_iff.mp hmode).2.2 mode)
  | some m =>
    have hholds := Parameter.holds_iff.mp (hf.named m hmode)
    rw [← hholds, Parameter.holds_iff.mp hm]

theorem Parameter.Holds.kind_eq {p : Parameter} {mode : Mode} (h : p.Holds mode) :
    p.value.kind = .text := by
  obtain ⟨text, hv, -⟩ := h
  rw [hv]
  rfl

namespace Interface

variable {d : Description} {host overrides : Overrides} {i : Interface} {name key : String}
  {sd : Endpoint.Declaration} {e : Endpoint}

theorem exists_completed
    (h : Registry.ofDeclarations i.parameters.environment d.points = .ok i.points)
    (ht : i.parameters.WellTyped) (he : (name, .endpoint sd e) ∈ i.points.entries)
    (hk : e.handshake.key = some key) {p : Parameter} (hp : i.parameters.get? key = some p)
    (hkind : p.kind = .text) (mode : Mode) :
    ∃ j e', i.update [(key, .text mode.render)] = .succeed j () ∧
      j.points.get? name = some (.endpoint sd e') ∧ e'.handshake.key = some key ∧
      e'.handshake.mode = some mode := by
  obtain ⟨r, hr⟩ := Registry.exists_ofDeclarations_of_keepsReadable h
    (Table.keepsReadable_modify ht hp hkind mode)
  have happly : (i.parameters.applyOverrides [(key, .text mode.render)]).toExcept
      = .ok (i.parameters.modify key (·.assign (.text mode.render))) := by
    rw [Table.applyOverrides, Outcome.forEach_cons, Table.update_text hp hkind]
    rfl
  obtain ⟨e', p', he', hk', hp', hfollows⟩ := Registry.exists_endpoint_follows h hr he hk
  have hassigned : p' = p.assign (.text mode.render) := by
    rw [Dictionary.get?_modify, hp] at hp'
    simpa using hp'.symm
  have hmode : e'.handshake.mode = some mode :=
    hfollows.mode_eq ⟨mode.render, by rw [hassigned]; rfl, rfl⟩
  exact ⟨_, e', update_of_ofDeclarations (Registry.built_of_ofDeclarations h) happly hr, he', hk',
    hmode⟩

/-- A parameter that is no text holds no mode, and its endpoints are always pending. -/
theorem exists_pending_run (h : resolve d host = .ok i) {ops : List Operation}
    (he : (name, .endpoint sd e) ∈ (i.run ops).points.entries)
    (hk : e.handshake.key = some key) {p : Parameter}
    (hp : (i.run ops).parameters.get? key = some p) (hkind : p.kind ≠ .text)
    (later : List Operation) :
    ∃ e', (i.run (ops ++ later)).points.get? name = some (.endpoint sd e') ∧
      e'.handshake.key = some key ∧ e'.handshake.mode = none := by
  obtain ⟨e', p', he', hk', hp', hfollows⟩ := Registry.exists_endpoint_follows
    (ofDeclarations_run h ops) (ofDeclarations_run h (ops ++ later)) he hk
  refine ⟨e', he', hk', Option.eq_none_iff_forall_ne_some.mpr fun mode hm => hkind ?_⟩
  calc p.kind
      = p'.kind := (kind_eq_run h hp hp').symm
    _ = p'.value.kind := (wellTyped_run h (ops ++ later) key p' hp').symm
    _ = .text := (hfollows.named mode hm).kind_eq

theorem answer_update_ne_ok (h : resolve d host = .ok i) {ops : List Operation}
    (he : (name, .endpoint sd e) ∈ (i.run ops).points.entries)
    (hk : e.handshake.key = some key) {p : Parameter}
    (hp : (i.run ops).parameters.get? key = some p) (hkind : p.kind ≠ .text)
    (hnamed : key ∈ overrides.map Prod.fst) : ((i.run ops).update overrides).answer ≠ .ok () := by
  intro hok
  obtain ⟨e', he', hk', hnone⟩ := exists_pending_run h he hk hp hkind [.update overrides]
  have happlied : i.applied (ops ++ [.update overrides]) = i.applied ops ++ overrides := by
    simp [applied_append, applied, applies, hok]
  have hnamed' : key ∈
      (d.overrides ++ host ++ i.applied (ops ++ [.update overrides])).map Prod.fst := by
    rw [happlied, ← List.append_assoc, List.map_append]
    exact List.mem_append_right _ hnamed
  obtain ⟨e'', he'', -, hsome⟩ :=
    exists_settled_run h (Dictionary.mem_entries_of_get? he') hk' hnamed' []
  rw [List.append_nil, he'] at he''
  cases he''
  rw [hnone] at hsome
  cases hsome

/-- In every state of a run the host can give any mode to a handshake whose parameter is a
text, by one update. When the parameter is derived and of another kind its handshake is
pending, stays so in every later state, and every update that names the parameter is refused. -/
theorem handshake_completes (h : resolve d host = .ok i) (ops : List Operation)
    (he : (name, .endpoint sd e) ∈ (i.run ops).points.entries)
    (hk : e.handshake.key = some key) :
    ∃ p, (i.run ops).parameters.get? key = some p ∧
      (p.kind = .text → ∀ mode : Mode, ∃ j e',
        (i.run ops).update [(key, .text mode.render)] = .succeed j () ∧
          j.points.get? name = some (.endpoint sd e') ∧
          e'.handshake.key = some key ∧ e'.handshake.mode = some mode) ∧
      (p.kind ≠ .text → ∀ later,
        (∃ e', (i.run (ops ++ later)).points.get? name = some (.endpoint sd e') ∧
          e'.handshake.key = some key ∧ e'.handshake.mode = none) ∧
        ∀ overrides, key ∈ overrides.map Prod.fst →
          ((i.run (ops ++ later)).update overrides).answer ≠ .ok ()) := by
  have hpoints := ofDeclarations_run h ops
  obtain ⟨p, hp, -⟩ := Registry.exists_follows hpoints he hk
  refine ⟨p, hp, exists_completed hpoints (wellTyped_run h ops) he hk hp, fun hkind later => ?_⟩
  obtain ⟨e', he', hk', hnone⟩ := exists_pending_run h he hk hp hkind later
  have hmem := Dictionary.mem_entries_of_get? he'
  obtain ⟨p', hp', -⟩ := Registry.exists_follows (ofDeclarations_run h (ops ++ later)) hmem hk'
  have hkind' : p'.kind ≠ .text := kind_eq_run h hp hp' ▸ hkind
  exact ⟨⟨e', he', hk', hnone⟩, fun _ => answer_update_ne_ok h hmem hk' hp' hkind'⟩

theorem handshake_completes_pendingSink :
    ∃ i e p, resolve pendingSink [] = .ok i ∧
      ("In", .endpoint Point.exampleSink e) ∈ (i.run [.elaborate]).points.entries ∧
      e.handshake.key = some "MODE" ∧ e.handshake.mode = none ∧
      (i.run [.elaborate]).parameters.get? "MODE" = some p ∧
      ∀ mode : Mode, ∃ j e',
        (i.run [.elaborate]).update [("MODE", .text mode.render)] = .succeed j () ∧
          j.points.get? "In" = some (.endpoint Point.exampleSink e') ∧
          e'.handshake.key = some "MODE" ∧ e'.handshake.mode = some mode :=
  have resolved : resolve pendingSink [] = .ok _ := rfl
  have ⟨_, found, completes, _⟩ := handshake_completes resolved [.elaborate] (.head _) rfl
  ⟨_, _, _, resolved, .head _, rfl, rfl, found, completes (Option.some.inj found ▸ rfl)⟩

/-- The pending sink with a number in the place of its mode. -/
def pendingCount : Description :=
  { pendingSink with
    parameters :=
      [Showcase.natural "WIDTH" 8, { Showcase.natural "MODE" 0 with derived := true }] }

/-- The sink alone names the parameter and is accepted as pending, but no mode can be given. -/
theorem pendingCount_refuses :
    ∃ i e, resolve pendingCount [] = .ok i ∧
      ("In", .endpoint Point.exampleSink e) ∈ i.points.entries ∧
      e.handshake.key = some "MODE" ∧ e.handshake.mode = none ∧
      (∀ name p, (name, p) ∈ i.points.entries → "MODE" ∈ p.symbolicFields.map Prod.snd →
        name = "In") ∧
      ∀ mode : Mode, (i.update [("MODE", .text mode.render)]).answer
        = .error (.parameter (.invalidValue "MODE" .natural mode.render)) := by
  refine ⟨_, _, rfl, .head _, rfl, rfl, ?_, ?_⟩
  · rintro name p (_ | ⟨_, ⟨⟩⟩) -
    rfl
  · intro mode
    cases mode <;> rfl

end Interface

end Interconnect
