import Interconnect.Proofs.Acceptance

/-! # Clocks declared with their resets

A clock and its reset in one declaration register as the clock and then the reset would, all
or nothing. Neither point reads a parameter: a registry with them at its end looks up, refreshes
and lists bindings as it did before, and two more names are taken.
-/

namespace Interconnect

open Parameter (Environment Table)
open Point (Declaration Error)

namespace Dictionary

variable {α ε : Type} {d : Dictionary α} {es : List (String × α)}

/-- The dictionary with more entries at its end. -/
def append (d : Dictionary α) (es : List (String × α)) : Dictionary α := ⟨d.entries ++ es⟩

theorem keys_append : (d.append es).keys = d.keys ++ es.map Prod.fst := List.map_append ..

theorem values_append : (d.append es).values = d.values ++ es.map Prod.snd := List.map_append ..

theorem get?_append (name : String) :
    (d.append es).get? name = (d.get? name).or (es.lookup name) := List.lookup_append ..

theorem traverse_append {f : α → Except ε α} (h : ∀ e ∈ es, f e.2 = .ok e.2) :
    (d.append es).traverse f = (d.traverse f).map (·.append es) := by
  have hkept : es.mapM (fun e => (f e.2).map (e.1, ·)) = .ok es :=
    mapM_eq_ok_iff.mpr (List.forall₂_same.mpr fun e he => by rw [h e he]; rfl)
  rw [traverse, append, List.mapM_append, hkept, traverse]
  cases d.entries.mapM fun e => (f e.2).map (e.1, ·) <;> rfl

end Dictionary

/-- The point reads no parameter. -/
structure Point.Fixed (p : Point) : Prop where
  refresh : ∀ env, p.refresh env = .ok p
  symbolicFields : p.symbolicFields = []

namespace Registry

variable {env : Environment} {t : Table} {r : Registry} {d : Declaration}
  {es : List (String × Point)}

theorem refresh_append (h : ∀ e ∈ es, e.2.Fixed) (env : Environment) :
    refresh (r.append es) env = (r.refresh env).mapState (·.append es) := by
  have hkept : ∀ e ∈ es, e.2.refresh env = .ok e.2 := fun e he => (h e he).refresh env
  rw [refresh, refresh, Dictionary.traverse_append hkept]
  cases Dictionary.traverse (Point.refresh env) r <;> rfl

theorem symbolicFields_append (h : ∀ e ∈ es, e.2.Fixed) :
    symbolicFields (r.append es) = r.symbolicFields := by
  have hnone : symbolicFields ⟨es⟩ = [] := by
    refine List.flatMap_eq_nil_iff.mpr fun p hp => ?_
    obtain ⟨e, he, rfl⟩ := List.mem_map.mp hp
    rw [(h e he).symbolicFields, List.map_nil]
  have happend : symbolicFields (r.append es) = r.symbolicFields ++ symbolicFields ⟨es⟩ := by
    rw [symbolicFields, Dictionary.values_append, List.flatMap_append]
    rfl
  rw [happend, hnone, List.append_nil]

theorem bindings_append (h : ∀ e ∈ es, e.2.Fixed) (t : Table) :
    bindings (r.append es) t = r.bindings t := by
  rw [bindings, symbolicFields_append h]
  rfl

theorem elaborate_append (h : ∀ e ∈ es, e.2.Fixed) (t : Table) :
    elaborate (r.append es) t
      = (r.elaborate t).mapState fun (points, table) => (points.append es, table) := by
  simp only [elaborate, refresh_append h, Outcome.answer_mapState, Outcome.state_mapState,
    bindings_append h]
  split
  · rfl
  · split <;> rfl

theorem register_eq_succeed_iff {r' : Registry} :
    r.register env d = .succeed r' () ↔
      d.names.Nodup ∧ (∀ name ∈ d.names, name ∉ r.keys) ∧
        ∃ es, d.blueprints.mapM (Blueprint.entry env) = .ok es ∧ r' = r.append es := by
  constructor
  · intro h
    obtain ⟨hn, hfresh, es, hes, hstate⟩ :=
      exists_of_register_ok (congrArg Outcome.answer h : (r.register env d).answer = .ok ())
    rw [h] at hstate
    exact ⟨hn, hfresh, es, mapM_eq_ok_iff.mpr hes, hstate⟩
  · rintro ⟨hn, hfresh, es, hes, rfl⟩
    rw [register_eq hn hfresh, hes]
    rfl

theorem register_eq_succeed_iff_of_singleton {b : Blueprint} {r' : Registry}
    (hb : d.blueprints = [b]) :
    r.register env d = .succeed r' () ↔
      b.name ∉ r.keys ∧ ∃ p, b.Resolves env p ∧ r' = r.append [(b.name, p)] := by
  have hnames : d.names = [b.name] := by rw [← d.map_name_blueprints, hb]; rfl
  rw [register_eq_succeed_iff, hnames, hb]
  simp only [List.nodup_cons, List.not_mem_nil, not_false_eq_true, List.nodup_nil, and_self,
    true_and, List.forall_mem_singleton, mapM_singleton, Blueprint.entry, map_eq_ok_iff,
    Blueprint.resolve_eq_ok_iff]
  refine and_congr_right fun _ => ?_
  constructor
  · rintro ⟨_, ⟨_, ⟨p, hp, rfl⟩, rfl⟩, rfl⟩; exact ⟨p, hp, rfl⟩
  · rintro ⟨p, hp, rfl⟩; exact ⟨_, ⟨_, ⟨p, hp, rfl⟩, rfl⟩, rfl⟩

theorem register_clock_eq_succeed_iff {d : Clock.Declaration} {r' : Registry} :
    r.register env (.clock d) = .succeed r' () ↔
      d.name ∉ r.keys ∧ ∃ clock, Clock.resolve d = .ok clock ∧
        r' = r.append [(clock.name, .clock clock)] := by
  rw [register_eq_succeed_iff_of_singleton rfl]
  refine and_congr_right fun _ => ?_
  constructor
  · rintro ⟨_, hresolves, rfl⟩
    cases hresolves with
    | clock h => exact ⟨_, h, by rw [Clock.name_eq_of_resolve h]; rfl⟩
  · rintro ⟨_, h, rfl⟩; exact ⟨_, .clock h, by rw [Clock.name_eq_of_resolve h]; rfl⟩

theorem register_reset_eq_succeed_iff {d : Reset.Declaration} {r' : Registry} :
    r.register env (.reset d) = .succeed r' () ↔
      d.name ∉ r.keys ∧ ∃ reset, Reset.resolve d = .ok reset ∧
        r' = r.append [(reset.name, .reset reset)] := by
  rw [register_eq_succeed_iff_of_singleton rfl]
  refine and_congr_right fun _ => ?_
  constructor
  · rintro ⟨_, hresolves, rfl⟩
    cases hresolves with
    | reset h => exact ⟨_, h, by rw [Reset.name_eq_of_resolve h]; rfl⟩
  · rintro ⟨_, h, rfl⟩; exact ⟨_, .reset h, by rw [Reset.name_eq_of_resolve h]; rfl⟩

/-- A declaration whose points are those of two others registers as one after the other does,
but for what a failure leaves. -/
theorem register_eq_succeed_iff_of_append (first second : Declaration) {r'' : Registry}
    (hnames : d.names = first.names ++ second.names)
    (hblueprints : d.blueprints = first.blueprints ++ second.blueprints) :
    r.register env d = .succeed r'' () ↔
      ∃ r', r.register env first = .succeed r' () ∧ r'.register env second = .succeed r'' () := by
  have hkeys {es : List (String × Point)}
      (hes : first.blueprints.mapM (Blueprint.entry env) = .ok es) :
      (r.append es).keys = r.keys ++ first.names := by
    rw [Dictionary.keys_append, map_fst_of_mapM_entry hes]
  simp only [register_eq_succeed_iff, hnames, hblueprints, List.nodup_append,
    List.forall_mem_append]
  constructor
  · rintro ⟨⟨hn, hn', hdisjoint⟩, ⟨hfresh, hfresh'⟩, es, hes, rfl⟩
    rw [List.mapM_append, bind_eq_ok_iff] at hes
    obtain ⟨es₁, hes₁, hes⟩ := hes
    obtain ⟨es₂, hes₂, ⟨⟩⟩ := bind_eq_ok_iff.mp hes
    refine ⟨_, ⟨hn, hfresh, es₁, hes₁, rfl⟩, hn', ?_, es₂, hes₂, ?_⟩
    · intro name hname hm
      rw [hkeys hes₁, List.mem_append] at hm
      exact hm.elim (hfresh' name hname) fun hm => hdisjoint name hm name hname rfl
    · exact congrArg Dictionary.mk (List.append_assoc ..).symm
  · rintro ⟨_, ⟨hn, hfresh, es₁, hes₁, rfl⟩, hn', hfresh', es₂, hes₂, rfl⟩
    rw [hkeys hes₁] at hfresh'
    refine ⟨⟨hn, hn', ?_⟩, ⟨hfresh, ?_⟩, es₁ ++ es₂, ?_, ?_⟩
    · rintro name hm _ hname rfl
      exact hfresh' name hname (List.mem_append_right _ hm)
    · exact fun name hname hm => hfresh' name hname (List.mem_append_left _ hm)
    · rw [List.mapM_append, hes₁, hes₂]
      rfl
    · exact congrArg Dictionary.mk (List.append_assoc ..)

theorem exists_duplicateName_iff :
    (∃ name, (r.register env d).answer = .error (.duplicateName name)) ↔
      ¬ (d.names.Nodup ∧ ∀ name ∈ d.names, name ∉ r.keys) := by
  cases htaken : firstTaken r.keys d.names with
  | some name =>
    have hnot : ¬ (d.names.Nodup ∧ ∀ name ∈ d.names, name ∉ r.keys) := by
      rintro ⟨hn, hfresh⟩
      rw [firstTaken_eq_none_iff.mpr ⟨hfresh, hn⟩] at htaken
      cases htaken
    exact iff_of_true ⟨name, by rw [register_of_taken htaken]; rfl⟩ hnot
  | none =>
    obtain ⟨hfresh, hn⟩ := firstTaken_eq_none_iff.mp htaken
    refine iff_of_false ?_ (not_not_intro ⟨hn, hfresh⟩)
    rintro ⟨name, h⟩
    rw [register_eq hn hfresh, Blueprint.mapM_entry] at h
    cases hps : d.blueprints.mapM (Blueprint.resolve env) with
    | ok ps => rw [hps] at h; cases h
    | error e =>
      rw [hps] at h
      cases h
      obtain ⟨-, b, -, -, -, he⟩ := mapM_eq_error_iff.mp hps
      cases Blueprint.blames_resolve env b _ he

end Registry

namespace ClockReset

variable {d : ClockReset} {r : Registry} {env : Environment}

/-- Registers the clock alone. -/
def registerClock (d : ClockReset) (r : Registry) (env : Environment) :
    Outcome Registry Error Unit :=
  r.register env (.clock d.clockDeclaration)

/-- Registers the reset after the clock, on what the clock has left. -/
def registerReset (d : ClockReset) (r : Registry) (env : Environment) :
    Outcome Registry Error Unit :=
  (d.registerClock r env).state.register env (.reset d.resetDeclaration)

/-- The entries of a clock and its reset. -/
def entries (clock : Clock) (reset : Reset) : List (String × Point) :=
  [(clock.name, .clock clock), (reset.name, .reset reset)]

/-- What a registry does once a clock and its reset stand at its end. -/
structure Extends (r' r : Registry) (clock : Clock) (reset : Reset) : Prop where
  state : r' = r.append (entries clock reset)
  lookup : ∀ name, r'.get? name =
    if name = clock.name then some (.clock clock)
    else if name = reset.name then some (.reset reset)
    else r.get? name
  refresh : ∀ env, r'.refresh env = (r.refresh env).mapState (·.append (entries clock reset))
  bindings : ∀ t, r'.bindings t = r.bindings t
  elaborate : ∀ t, r'.elaborate t = (r.elaborate t).mapState
    fun (points, table) => (points.append (entries clock reset), table)
  duplicate : ∀ env d, (∃ name, (r'.register env d).answer = .error (.duplicateName name)) ↔
    ¬ (d.names.Nodup ∧
      ∀ name ∈ d.names, name ∉ r.keys ∧ name ≠ clock.name ∧ name ≠ reset.name)

theorem fixed_of_mem_entries {clock : Clock} {reset : Reset} :
    ∀ e ∈ entries clock reset, e.2.Fixed := by
  intro e he
  simp only [entries, List.mem_cons, List.not_mem_nil, or_false] at he
  obtain rfl | rfl := he <;> exact ⟨fun _ => rfl, rfl⟩

theorem extends_append {clock : Clock} {reset : Reset} (hclock : clock.name ∉ r.keys)
    (hreset : reset.name ∉ r.keys) :
    Extends (r.append (entries clock reset)) r clock reset := by
  constructor
  case state => rfl
  case lookup =>
    intro name
    rw [Dictionary.get?_append]
    by_cases hc : name = clock.name
    · rw [if_pos hc, hc, Dictionary.get?_of_notMem hclock]
      simp [entries]
    · rw [if_neg hc]
      by_cases hs : name = reset.name
      · rw [if_pos hs, hs, Dictionary.get?_of_notMem hreset]
        simp [entries, List.lookup_cons, beq_false_of_ne (hs ▸ hc)]
      · rw [if_neg hs]
        simp [entries, List.lookup_cons, beq_false_of_ne hc, beq_false_of_ne hs]
  case refresh => exact Registry.refresh_append fixed_of_mem_entries
  case bindings => exact Registry.bindings_append fixed_of_mem_entries
  case elaborate => exact Registry.elaborate_append fixed_of_mem_entries
  case duplicate =>
    intro env d
    have hkeys : (r.append (entries clock reset)).keys = r.keys ++ [clock.name, reset.name] :=
      Dictionary.keys_append
    rw [Registry.exists_duplicateName_iff, hkeys]
    simp only [List.mem_append, List.mem_cons, List.not_mem_nil, or_false, not_or]

/-- The declaration registers as the clock and then the reset, all or nothing. -/
structure RegistersInTurn (d : ClockReset) (r : Registry) (env : Environment) : Prop where
  accepted : (r.register env (.clockReset d)).answer = .ok () ↔
    (d.registerClock r env).answer = .ok () ∧ (d.registerReset r env).answer = .ok ()
  same : (r.register env (.clockReset d)).answer = .ok () →
    (r.register env (.clockReset d)).state = (d.registerReset r env).state
  refused : ∀ e, (d.registerClock r env).answer = .error e ∨
    (d.registerReset r env).answer = .error e → ∃ e', r.register env (.clockReset d) = .fail r e'
  half : ∀ e, (d.registerClock r env).answer = .ok () →
    (d.registerReset r env).answer = .error e → ∃ clock,
      Clock.resolve d.clockDeclaration = .ok clock ∧
      (d.registerReset r env).state = r.append [(clock.name, .clock clock)]
  later : (r.register env (.clockReset d)).answer = .ok () → ∃ clock reset,
    Clock.resolve d.clockDeclaration = .ok clock ∧ Reset.resolve d.resetDeclaration = .ok reset ∧
      Extends (r.register env (.clockReset d)).state r clock reset

theorem register_eq_succeed_iff {r' : Registry} :
    r.register env (.clockReset d) = .succeed r' () ↔
      (d.registerClock r env).answer = .ok () ∧ d.registerReset r env = .succeed r' () := by
  rw [Registry.register_eq_succeed_iff_of_append (.clock d.clockDeclaration)
    (.reset d.resetDeclaration) rfl rfl]
  constructor
  · rintro ⟨r₁, hclock, hreset⟩
    refine ⟨congrArg Outcome.answer hclock, ?_⟩
    rw [registerReset, registerClock, hclock]
    exact hreset
  · rintro ⟨hclock, hreset⟩
    exact ⟨_, Outcome.eq_succeed_of_answer hclock, hreset⟩

theorem exists_extends (h : (r.register env (.clockReset d)).answer = .ok ()) :
    ∃ clock reset, Clock.resolve d.clockDeclaration = .ok clock ∧
      Reset.resolve d.resetDeclaration = .ok reset ∧
      Extends (r.register env (.clockReset d)).state r clock reset := by
  obtain ⟨r₁, hclock, hreset⟩ := (Registry.register_eq_succeed_iff_of_append
    (.clock d.clockDeclaration) (.reset d.resetDeclaration) rfl rfl).mp
    (Outcome.eq_succeed_of_answer h)
  obtain ⟨hclock, clock, hc, rfl⟩ := Registry.register_clock_eq_succeed_iff.mp hclock
  obtain ⟨hreset, reset, hs, hstate⟩ := Registry.register_reset_eq_succeed_iff.mp hreset
  have hentries : (r.register env (.clockReset d)).state = r.append (entries clock reset) :=
    hstate.trans (congrArg Dictionary.mk (List.append_assoc ..))
  refine ⟨clock, reset, hc, hs, ?_⟩
  rw [hentries]
  refine extends_append ?_ ?_
  · rwa [Clock.name_eq_of_resolve hc]
  · rw [Reset.name_eq_of_resolve hs]
    exact fun hm => hreset (Dictionary.keys_append ▸ List.mem_append_left _ hm)

/-- A clock declared with its reset registers as the clock and then the reset, but for what a
failure leaves. Once they are registered the registry does what it did before them, and knows
two more names. -/
theorem registersInTurn (d : ClockReset) (r : Registry) (env : Environment) :
    d.RegistersInTurn r env := by
  have haccepted : (r.register env (.clockReset d)).answer = .ok () ↔
      (d.registerClock r env).answer = .ok () ∧ (d.registerReset r env).answer = .ok () := by
    constructor
    · intro h
      obtain ⟨hclock, hreset⟩ := register_eq_succeed_iff.mp (Outcome.eq_succeed_of_answer h)
      exact ⟨hclock, congrArg Outcome.answer hreset⟩
    · rintro ⟨hclock, hreset⟩
      exact congrArg Outcome.answer
        (register_eq_succeed_iff.mpr ⟨hclock, Outcome.eq_succeed_of_answer hreset⟩)
  constructor
  case accepted => exact haccepted
  case same =>
    intro h
    obtain ⟨-, hreset⟩ := register_eq_succeed_iff.mp (Outcome.eq_succeed_of_answer h)
    exact (congrArg Outcome.state hreset).symm
  case refused =>
    intro e he
    cases hd : (r.register env (.clockReset d)).answer with
    | ok =>
      obtain ⟨hclock, hreset⟩ := haccepted.mp hd
      rw [hclock, hreset] at he
      cases he <;> contradiction
    | error e' => exact ⟨e', Outcome.eq_fail_of_answer hd (Registry.state_register_of_error hd)⟩
  case half =>
    intro e hclock he
    obtain ⟨-, clock, hc, hstate⟩ :=
      Registry.register_clock_eq_succeed_iff.mp (Outcome.eq_succeed_of_answer hclock)
    refine ⟨clock, hc, ?_⟩
    rw [← hstate]
    exact Registry.state_register_of_error he
  case later => exact exists_extends

def outPair : ClockReset := { clock := "ClkOut", reset := "ResetOut" }

/-- A reset under the name of its clock. -/
def samePair : ClockReset := { clock := "Clk", reset := "Clk" }

/-- A pair registers as its halves do. Under one name for both it is refused, and of the halves the
clock is left. -/
theorem registersInTurn_outPair :
    ((Registry.register {} (fun _ => none) (.clockReset outPair)).state
        = (outPair.registerReset {} fun _ => none).state ∧
      (outPair.registerReset {} fun _ => none).state.keys = ["ClkOut", "ResetOut"]) ∧
    (∃ e, Registry.register {} (fun _ => none) (.clockReset samePair) = .fail {} e) ∧
      (samePair.registerReset {} fun _ => none).state.keys = ["Clk"] :=
  ⟨⟨(registersInTurn outPair {} fun _ => none).same rfl, rfl⟩,
    (registersInTurn samePair {} fun _ => none).refused _ (.inr rfl), rfl⟩

end ClockReset

end Interconnect
