import Interconnect.Proofs.Representation
import Interconnect.Proofs.Validity.Point

/-! # Which declarations a registry accepts

A registry accepts exactly the valid declarations with new names. A refusal names what is
at fault: the first name that is taken, or the first point of the declaration that is not
valid.
-/

namespace Interconnect

open Parameter (Environment Table Value)

/-- The connection point whose declaration an error is about. -/
def Point.Error.point? : Point.Error → Option String
  | invalidWidth point _ _ => some point
  | unresolvedParameter point _ _ => some point
  | invalidPackets point _ => some point
  | invalidChannel point _ => some point
  | invalidHandshake point _ => some point
  | invalidAddress point _ => some point
  | invalidSignalWidth point _ _ => some point
  | nonIntegralSymbolCount point _ _ => some point
  | invalidClockRate point _ => some point
  | invalidEdges point _ => some point
  | invalidDirection point _ _ => some point
  | duplicateName _ => none
  | unknownKind _ => none
  | parameter _ => none

/-- A computation that fails, if at all, on account of the given point. -/
def Blames {α : Type} (point : String) (x : Except Point.Error α) : Prop :=
  ∀ e, x = .error e → e.point? = some point

namespace Blames

variable {α β : Type} {point : String}

theorem ok (a : α) : Blames point (.ok a) := nofun

theorem error {e : Point.Error} (h : e.point? = some point) :
    Blames point (Except.error e : Except Point.Error α) := by
  rintro _ ⟨⟩
  exact h

theorem bind {x : Except Point.Error α} {f : α → Except Point.Error β} (hx : Blames point x)
    (hf : ∀ a, Blames point (f a)) : Blames point (x >>= f) := by
  cases x with
  | error e =>
    have he : Blames point (Except.error e : Except Point.Error β) := error (hx e rfl)
    exact he
  | ok a => exact hf a

theorem map {x : Except Point.Error α} (hx : Blames point x) (f : α → β) :
    Blames point (x.map f) :=
  fun e he => hx e (map_eq_error_iff.mp he)

theorem mapM {f : α → Except Point.Error β} (hf : ∀ a, Blames point (f a)) (xs : List α) :
    Blames point (xs.mapM f) := by
  intro e he
  obtain ⟨_, x, _, _, _, hx⟩ := mapM_eq_error_iff.mp he
  exact hf x e hx

end Blames

section Resolution

variable {α : Type} {env : Environment} {read : Value → Option α} {point : String}

theorem Resolved.blames_ofReference? (field : String) (ref : Reference α) :
    Blames point (ofReference? env read point field ref) := by
  unfold ofReference?
  split
  · exact .ok _
  · exact .ok _
  · split
    · exact .ok _
    · exact .error rfl

theorem Resolved.blames_orElse {error : Point.Error} {x : Except Point.Error (Option (Resolved α))}
    (he : error.point? = some point) (hx : Blames point x) : Blames point (orElse error x) := by
  unfold orElse
  split
  · exact .ok _
  · exact .error he
  · exact .error (hx _ rfl)

theorem Resolved.blames_number (field : String) (raw : Scalar) :
    Blames point (number env point field raw) :=
  blames_orElse rfl (blames_ofReference? _ _)

theorem Resolved.blames_natural (field : String) (raw : Option Scalar) (default : UInt64) :
    Blames point (natural env point field raw default) := by
  cases raw with
  | some raw => exact blames_number field raw
  | none => exact .ok _

theorem Resolved.blames_flag (field : String) (raw : Option Scalar) (default : Bool) :
    Blames point (flag env point field raw default) := by
  cases raw with
  | some raw => exact blames_orElse rfl (blames_ofReference? _ _)
  | none => exact .ok _

theorem Resolved.blames_positive (field : String) (width : Resolved UInt64) :
    Blames point (positive point field width) := by
  unfold positive
  split
  · exact .error rfl
  · exact .ok _

theorem blames_symbolCount (width symbolWidth : UInt64) :
    Blames point (symbolCount point width symbolWidth) := by
  unfold symbolCount
  split
  · exact .ok _
  · exact .error rfl

theorem Endpoint.blames_optionally {δ ρ : Type} {resolve : δ → Except Point.Error ρ}
    (h : ∀ d, Blames point (resolve d)) (d : Option δ) : Blames point (optionally resolve d) := by
  cases d with
  | some d => exact (h d).map _
  | none => exact .ok _

end Resolution

namespace Endpoint

variable {env : Environment} {point base : String}

theorem blames_resolveSymbolWidth (dataWidth : Resolved UInt64) (raw : Option Scalar) :
    Blames point (resolveSymbolWidth env point dataWidth raw) := by
  cases raw with
  | some raw => exact (Resolved.blames_number _ _).bind fun _ => Resolved.blames_positive _ _
  | none => exact .ok _

theorem Handshake.blames_resolve (name : Option String) :
    Blames point (Handshake.resolve env point base name) := by
  unfold Handshake.resolve
  split
  · exact .ok _
  · split
    · exact .ok _
    · split
      · exact .error rfl
      · split
        · exact .ok _
        · split
          · exact .ok _
          · exact .error rfl

theorem Packets.blames_resolve (symbols : UInt64) (d : PacketDeclaration) :
    Blames point (Packets.resolve env point base symbols d) := by
  have hflag (label field : String) (raw : Scalar) :
      Blames point (Packets.flag env point label field raw) :=
    Resolved.blames_orElse rfl (Resolved.blames_ofReference? _ _)
  refine (hflag _ _ _).bind fun _ => ?_
  split
  · exact .ok _
  · exact (hflag _ _ _).bind fun _ => .ok _

theorem Channel.blames_resolve (d : ChannelDeclaration) :
    Blames point (Channel.resolve env point base d) := by
  have hlimit (used : Resolved Bool) (max : Option (Resolved UInt64)) :
      Blames point (ofLimit point base used max) := by
    unfold ofLimit
    split
    · split
      · exact .ok _
      · exact .error rfl
    · exact .ok _
  refine (Resolved.blames_orElse rfl (Resolved.blames_ofReference? _ _)).bind fun _ => ?_
  split
  · exact hlimit _ _
  · exact (Resolved.blames_orElse rfl (Resolved.blames_ofReference? _ _)).bind fun _ => hlimit _ _

theorem ErrorSignal.blames_resolve (d : ErrorDeclaration) :
    Blames point (ErrorSignal.resolve env point base d) :=
  (Resolved.blames_number _ _).bind fun _ => .ok _

theorem blames_resolve (direction : Direction) (d : Declaration) :
    Blames d.name (resolve env direction d) :=
  (Resolved.blames_number _ _).bind fun _ =>
    (Resolved.blames_positive _ _).bind fun _ =>
    (blames_resolveSymbolWidth _ _).bind fun _ =>
    (blames_symbolCount _ _).bind fun _ =>
    (Handshake.blames_resolve _).bind fun _ =>
    (blames_optionally (Packets.blames_resolve _) _).bind fun _ =>
    (blames_optionally Channel.blames_resolve _).bind fun _ =>
    (blames_optionally ErrorSignal.blames_resolve _).bind fun _ => .ok _

end Endpoint

namespace MemoryMapped

open Endpoint (blames_optionally)

variable {env : Environment} {point : String}

theorem Address.blames_resolve (d : AddressDeclaration) :
    Blames point (Address.resolve env point d) := by
  unfold Address.resolve
  split
  · exact .error rfl
  · exact (Resolved.blames_orElse rfl (Resolved.blames_ofReference? _ _)).bind fun _ => .ok _

theorem Burst.blames_resolve (d : BurstDeclaration) : Blames point (Burst.resolve env point d) :=
  (Resolved.blames_number _ _).bind fun _ =>
    (Resolved.blames_natural _ _ _).bind fun _ =>
    (Resolved.blames_flag _ _ _).bind fun _ =>
    (Resolved.blames_flag _ _ _).bind fun _ => .ok _

theorem WriteSide.blames_byteEnables (dataWidth : UInt64) (symbolWidth : Resolved UInt64)
    (name : String) : Blames point (byteEnables point dataWidth symbolWidth name) := by
  refine (Resolved.blames_positive _ _).bind fun _ => (blames_symbolCount _ _).bind fun _ => ?_
  split
  · exact .ok _
  · exact .error rfl

theorem WriteSide.blames_resolve (dataWidth : UInt64) (d : WriteDeclaration) :
    Blames point (WriteSide.resolve env point dataWidth d) :=
  (Resolved.blames_natural _ _ _).bind fun _ =>
    (blames_optionally (blames_byteEnables _ _) _).bind fun _ =>
    (Resolved.blames_natural _ _ _).bind fun _ =>
    (Resolved.blames_natural _ _ _).bind fun _ => .ok _

theorem ReadSide.blames_resolve (d : ReadDeclaration) :
    Blames point (ReadSide.resolve env point d) :=
  (Resolved.blames_natural _ _ _).bind fun _ =>
    (Resolved.blames_natural _ _ _).bind fun _ =>
    (Resolved.blames_natural _ _ _).bind fun _ => .ok _

theorem blames_bridging (raw : Option Scalar) (role : Role) :
    Blames point (bridging env point raw role) := by
  cases role with
  | slave => exact (Resolved.blames_flag _ _ _).map _
  | master => exact .ok _

theorem blames_resolve (role : Role) (d : Declaration) : Blames d.name (resolve env role d) :=
  (blames_optionally Address.blames_resolve _).bind fun _ =>
    (blames_optionally Burst.blames_resolve _).bind fun _ =>
    (Resolved.blames_natural _ _ _).bind fun _ =>
    (Resolved.blames_positive _ _).bind fun _ =>
    (blames_optionally (WriteSide.blames_resolve _) _).bind fun _ =>
    (blames_optionally ReadSide.blames_resolve _).bind fun _ =>
    (Resolved.blames_natural _ _ _).bind fun _ =>
    (blames_bridging _ _).bind fun _ => .ok _

end MemoryMapped

theorem Conduit.blames_resolve (env : Environment) (d : Conduit.Declaration) :
    Blames d.name (resolve env d) := by
  refine (Blames.mapM (fun s => ?_) _).bind fun _ => .ok _
  unfold ConduitSignal.resolve
  split
  · exact .error rfl
  · exact (Resolved.blames_orElse rfl (Resolved.blames_ofReference? _ _)).bind fun _ => .ok _

theorem Clock.blames_resolve (d : Clock.Declaration) : Blames d.name (resolve d) := by
  unfold resolve
  split
  · exact .ok _
  · exact .ok _
  · split
    · exact .ok _
    · exact .error rfl
  · exact .error rfl

theorem Reset.blames_resolve (d : Reset.Declaration) : Blames d.name (resolve d) := by
  unfold resolve
  split
  · exact .ok _
  · split
    · exact .ok _
    · exact .error rfl

theorem Blueprint.blames_resolve (env : Environment) (b : Blueprint) :
    Blames b.name (b.resolve env) := by
  cases b with
  | clock d => exact (Clock.blames_resolve d).map _
  | reset d => exact (Reset.blames_resolve d).map _
  | endpoint direction d => exact (Endpoint.blames_resolve direction d).map _
  | memoryMapped role d => exact (MemoryMapped.blames_resolve role d).map _
  | conduit d => exact (Conduit.blames_resolve env d).map _

namespace Registry

open Point (Declaration Error completeTable exampleSink)

/-- What a refused declaration is refused for. -/
inductive Refuses (r : Registry) (t : Table) (d : Declaration) : Error → Prop where
  /-- A name is taken, by an entry or by an earlier name of the declaration. -/
  | taken {before after : List String} {name : String} : d.names = before ++ name :: after →
      before.Nodup → (∀ n ∈ before, n ∉ r.keys) → name ∈ r.keys ∨ name ∈ before →
      Refuses r t d (.duplicateName name)
  /-- A point is not valid, and the points before it are. -/
  | invalid {before after : List Blueprint} {b : Blueprint} {e : Error} :
      d.names.Nodup → (∀ n ∈ d.names, n ∉ r.keys) → d.blueprints = before ++ b :: after →
      (∀ c ∈ before, c.Valid t) → ¬ b.Valid t → e.point? = some b.name → Refuses r t d e

variable {r : Registry} {t : Table} {d : Declaration}

theorem register_ok_iff : (r.register t.environment d).answer = .ok () ↔
    d.names.Nodup ∧ (∀ name ∈ d.names, name ∉ r.keys) ∧ d.Valid t := by
  rw [← Point.exists_ofDeclaration_iff, Point.ofDeclaration_eq]
  constructor
  · intro h
    obtain ⟨hn, hfresh, es, hes, -⟩ := exists_of_register_ok h
    rw [← mapM_eq_ok_iff, Blueprint.mapM_entry, map_eq_ok_iff] at hes
    obtain ⟨ps, hps, -⟩ := hes
    exact ⟨hn, hfresh, ps, hps⟩
  · rintro ⟨hn, hfresh, ps, hps⟩
    rw [register_eq hn hfresh, Blueprint.mapM_entry, hps]
    rfl

theorem firstTaken_eq_some {taken names : List String} {name : String}
    (h : firstTaken taken names = some name) :
    ∃ before after, names = before ++ name :: after ∧ before.Nodup ∧
      (∀ n ∈ before, n ∉ taken) ∧ (name ∈ taken ∨ name ∈ before) := by
  induction names generalizing taken with
  | nil => cases h
  | cons n names ih =>
    rw [firstTaken] at h
    split at h
    next hn => cases h; exact ⟨[], names, rfl, .nil, List.forall_mem_nil _, .inl hn⟩
    next hn =>
      obtain ⟨before, after, rfl, hnodup, hfresh, hname⟩ := ih h
      refine ⟨n :: before, after, rfl, List.nodup_cons.mpr ⟨?_, hnodup⟩, ?_, ?_⟩
      · exact fun hm => hfresh n hm List.mem_cons_self
      · rw [List.forall_mem_cons]
        exact ⟨hn, fun m hm ht => hfresh m hm (List.mem_cons_of_mem _ ht)⟩
      · simp only [List.mem_cons] at hname ⊢
        tauto

theorem refuses_of_register {e : Error} (h : (r.register t.environment d).answer = .error e) :
    Refuses r t d e := by
  cases htaken : firstTaken r.keys d.names with
  | some name =>
    rw [register_of_taken htaken] at h
    cases h
    obtain ⟨before, after, hnames, hnodup, hfresh, hname⟩ := firstTaken_eq_some htaken
    exact .taken hnames hnodup hfresh hname
  | none =>
    obtain ⟨hfresh, hn⟩ := firstTaken_eq_none_iff.mp htaken
    rw [register_eq hn hfresh, Blueprint.mapM_entry] at h
    cases hps : d.blueprints.mapM (Blueprint.resolve t.environment) with
    | ok ps => rw [hps] at h; cases h
    | error e' =>
      rw [hps] at h
      cases h
      obtain ⟨before, b, after, hb, hbefore, he⟩ := mapM_eq_error_iff.mp hps
      have hinvalid : ¬ b.Valid t := by
        rw [← Blueprint.exists_resolve_iff, he]
        rintro ⟨_, ⟨⟩⟩
      exact .invalid hn hfresh hb (fun c hc => Blueprint.exists_resolve_iff.mp (hbefore c hc))
        hinvalid (Blueprint.blames_resolve _ _ _ he)

/-- A declaration is accepted exactly when its names are new and its points are valid; a
refusal tells the first name that is taken or the first point that is not valid. -/
theorem register_accepts_or_refuses (r : Registry) (t : Table) (d : Declaration) :
    ((r.register t.environment d).answer = .ok () ↔
      d.names.Nodup ∧ (∀ name ∈ d.names, name ∉ r.keys) ∧ d.Valid t) ∧
    ∀ e, (r.register t.environment d).answer = .error e → Refuses r t d e :=
  ⟨register_ok_iff, fun _ => refuses_of_register⟩

/-- A registry with a clock. -/
def clockRegistry : Registry := (register {} (fun _ => none) (.clock { name := "Clk" })).state

/-- The sink is accepted beside the clock, but not under its name, and not with a text for its
width. -/
theorem register_accepts_or_refuses_exampleSink :
    ((clockRegistry.register completeTable.environment (.sink exampleSink)).answer = .ok () ∧
      Declaration.Valid completeTable (.sink exampleSink)) ∧
    Refuses clockRegistry completeTable (.sink { exampleSink with name := "Clk" })
      (.duplicateName "Clk") ∧
    Refuses clockRegistry completeTable
      (.sink { exampleSink with data := { name := "D", width := .text "MODE" } })
      (.invalidWidth "In" "data width" "MODE") := by
  have haccepted : (clockRegistry.register completeTable.environment (.sink exampleSink)).answer
      = .ok () := rfl
  refine ⟨⟨haccepted, ?_⟩, ?_, ?_⟩
  · exact ((register_accepts_or_refuses _ _ _).1.mp haccepted).2.2
  · exact (register_accepts_or_refuses _ _ _).2 _ rfl
  · exact (register_accepts_or_refuses _ _ _).2 _ rfl

end Registry

end Interconnect
