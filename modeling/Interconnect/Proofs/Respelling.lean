import Interconnect.Proofs.Representation
import Interconnect.Proofs.Session
import Interconnect.Proofs.Spelling

/-! # Points with respelled declarations

A point keeps its declaration as it was written. Two points that differ only in how their
declarations spell numbers show the same record and the same symbolic fields, and a refresh
treats them alike. Hence no operation tells apart two sessions whose points differ so: each of
them answers the same in both, and leaves sessions of which this is true again.
-/

namespace Interconnect

open Parameter (Environment Table)

/-- Two computations that fail with the same error, or have related values. -/
inductive Agree {ε α β : Type} (R : α → β → Prop) : Except ε α → Except ε β → Prop where
  | ok {a : α} {b : β} : R a b → Agree R (.ok a) (.ok b)
  | error (e : ε) : Agree R (.error e) (.error e)

namespace Agree

variable {ε α β γ δ : Type} {R : α → β → Prop}

theorem refl {R : α → α → Prop} (hR : ∀ a, R a a) (x : Except ε α) : Agree R x x := by
  cases x with
  | ok a => exact .ok (hR a)
  | error e => exact .error e

theorem map_of_eq {x x' : Except ε γ} (hx : x = x') {f : γ → α} {g : γ → β}
    (hfg : ∀ c, R (f c) (g c)) : Agree R (x.map f) (x'.map g) := by
  rw [hx]
  cases x' with
  | ok c => exact .ok (hfg c)
  | error e => exact .error e

theorem map {S : γ → δ → Prop} {x : Except ε α} {y : Except ε β} (h : Agree R x y) {f : α → γ}
    {g : β → δ} (hfg : ∀ a b, R a b → S (f a) (g b)) : Agree S (x.map f) (y.map g) := by
  cases h with
  | ok h => exact .ok (hfg _ _ h)
  | error e => exact .error e

theorem mapM {S : γ → δ → Prop} {f : γ → Except ε α} {g : δ → Except ε β} {xs : List γ}
    {ys : List δ} (h : List.Forall₂ S xs ys) (hfg : ∀ x y, S x y → Agree R (f x) (g y)) :
    Agree (List.Forall₂ R) (xs.mapM f) (ys.mapM g) := by
  induction h with
  | nil => exact .ok .nil
  | @cons x y xs ys hxy _ ih =>
    have hhead := hfg x y hxy
    rw [List.mapM_cons, List.mapM_cons]
    generalize f x = a at hhead ⊢
    generalize g y = b at hhead ⊢
    cases hhead with
    | error e => exact .error e
    | ok h =>
      generalize xs.mapM f = as at ih ⊢
      generalize ys.mapM g = bs at ih ⊢
      cases ih with
      | error e => exact .error e
      | ok hs => exact .ok (.cons h hs)

end Agree

namespace Point

/-- The points differ at most in the spelling of the declarations that they keep. -/
inductive Respelled : Point → Point → Prop where
  | same (p : Point) : Respelled p p
  | endpoint {d d' : Endpoint.Declaration} : d.Respelled d' → ∀ r,
      Respelled (.endpoint d r) (.endpoint d' r)
  | memoryMapped {d d' : MemoryMapped.Declaration} : d.Respelled d' → ∀ r,
      Respelled (.memoryMapped d r) (.memoryMapped d' r)
  | conduit {d d' : Conduit.Declaration} : d.Respelled d' → ∀ r,
      Respelled (.conduit d r) (.conduit d' r)

variable {env : Environment} {p p' : Point}

namespace Respelled

theorem record_eq (h : Respelled p p') : p.record = p'.record := by
  cases h <;> rfl

theorem name_eq (h : Respelled p p') : p.name = p'.name := by
  rw [name, name, h.record_eq]

theorem symbolicFields_eq (h : Respelled p p') : p.symbolicFields = p'.symbolicFields := by
  cases h with
  | endpoint h r => exact Endpoint.symbolicFields_respelled h r
  | same | memoryMapped | conduit => rfl

end Respelled

theorem ofEndpoint_respelled {d d' : Endpoint.Declaration} (h : d.Respelled d')
    (direction : Endpoint.Direction) :
    Agree Respelled (ofEndpoint env direction d) (ofEndpoint env direction d') :=
  .map_of_eq (Endpoint.resolve_respelled h) (.endpoint h)

theorem ofMemoryMapped_respelled {d d' : MemoryMapped.Declaration} (h : d.Respelled d')
    (role : MemoryMapped.Role) :
    Agree Respelled (ofMemoryMapped env role d) (ofMemoryMapped env role d') :=
  .map_of_eq (MemoryMapped.resolve_respelled h) (.memoryMapped h)

theorem ofConduit_respelled {d d' : Conduit.Declaration} (h : d.Respelled d') :
    Agree Respelled (ofConduit env d) (ofConduit env d') :=
  .map_of_eq (Conduit.resolve_respelled h) (.conduit h)

theorem Respelled.refresh (h : Respelled p p') (env : Environment) :
    Agree Respelled (p.refresh env) (p'.refresh env) := by
  cases h with
  | same => exact .refl .same _
  | endpoint h r => exact ofEndpoint_respelled h r.direction
  | memoryMapped h r => exact ofMemoryMapped_respelled h r.role
  | conduit h => exact ofConduit_respelled h

theorem Declaration.Respelled.names_eq {d d' : Declaration} (h : d.Respelled d') :
    d.names = d'.names := by
  cases h with
  | sink h | source h | master h | slave h | conduit h => cases h; rfl

theorem Declaration.Respelled.ofDeclaration {d d' : Declaration} (h : d.Respelled d')
    (env : Environment) :
    Agree (List.Forall₂ Point.Respelled) (Point.ofDeclaration env d)
      (Point.ofDeclaration env d') := by
  have hsingle : ∀ p p' : Point, p.Respelled p' → List.Forall₂ Point.Respelled [p] [p'] :=
    fun _ _ hp => .cons hp .nil
  cases h with
  | sink h => exact (ofEndpoint_respelled h .sink).map hsingle
  | source h => exact (ofEndpoint_respelled h .source).map hsingle
  | master h => exact (ofMemoryMapped_respelled h .master).map hsingle
  | slave h => exact (ofMemoryMapped_respelled h .slave).map hsingle
  | conduit h => exact (ofConduit_respelled h).map hsingle

end Point

/-- Two outcomes with the same answer and related states. -/
structure Outcome.Agree {σ τ ε α : Type} (R : σ → τ → Prop) (o : Outcome σ ε α)
    (o' : Outcome τ ε α) : Prop where
  answer : o.answer = o'.answer
  state : R o.state o'.state

namespace Registry

open Point (Declaration)

/-- The same names in the same order, with points that differ at most in spelling. -/
def Respelled (r r' : Registry) : Prop :=
  List.Forall₂ (fun e e' => e.1 = e'.1 ∧ e.2.Respelled e'.2) r.entries r'.entries

/-- The entries without the declarations that the points keep. -/
def shown (r : Registry) : List (String × Point.Record × List (String × String)) :=
  r.entries.map fun e => (e.1, e.2.record, e.2.symbolicFields)

theorem symbolicFields_eq_shown (r : Registry) :
    r.symbolicFields = r.shown.flatMap fun (_, record, fields) =>
      fields.map fun (field, key) => (record.name, field, key) := by
  rw [shown, List.flatMap_map, symbolicFields, Dictionary.values, List.flatMap_map]
  rfl

namespace Respelled

variable {r r' : Registry} {env : Environment}

theorem refl (r : Registry) : Respelled r r :=
  List.forall₂_same.mpr fun _ _ => ⟨rfl, .same _⟩

theorem shown_eq (h : Respelled r r') : r.shown = r'.shown :=
  (map_eq_of_forall₂ h fun _ _ ⟨hname, hp⟩ => by
    rw [hname, hp.record_eq, hp.symbolicFields_eq]).symm

theorem keys_eq (h : Respelled r r') : r.keys = r'.keys :=
  (map_eq_of_forall₂ h fun _ _ he => he.1.symm).symm

theorem bindings_eq (h : Respelled r r') (t : Table) : r.bindings t = r'.bindings t := by
  rw [bindings, bindings, symbolicFields_eq_shown, symbolicFields_eq_shown, h.shown_eq]

theorem insert (h : Respelled r r') (name : String) {p p' : Point} (hp : p.Respelled p') :
    Respelled (r.insert name p) (r'.insert name p') := by
  have hcontains : r.contains name = r'.contains name := by
    rw [Bool.eq_iff_iff, Dictionary.contains_iff_mem_keys, Dictionary.contains_iff_mem_keys,
      h.keys_eq]
  unfold Dictionary.insert
  rw [hcontains]
  split
  · refine List.forall₂_map_left_iff.mpr (List.forall₂_map_right_iff.mpr (h.imp ?_))
    rintro e e' ⟨hname, he⟩
    rw [hname]
    split
    · exact ⟨rfl, hp⟩
    · exact ⟨hname, he⟩
  · exact List.rel_append h (.cons ⟨rfl, hp⟩ .nil)

theorem addAll {points points' : List Point} (hpoints : List.Forall₂ Point.Respelled points points')
    (h : Respelled r r') : Respelled (r.addAll points) (r'.addAll points') := by
  induction hpoints generalizing r r' with
  | nil => exact h
  | @cons p p' _ _ hp _ ih =>
    have hinsert : Respelled (r.insert p.name p) (r'.insert p'.name p') := by
      rw [← hp.name_eq]
      exact h.insert p.name hp
    exact ih hinsert

theorem register (h : Respelled r r') {d d' : Declaration} (hnames : d.names = d'.names)
    (hpoints : Agree (List.Forall₂ Point.Respelled) (Point.ofDeclaration env d)
      (Point.ofDeclaration env d')) :
    (r.register env d).Agree Respelled (r'.register env d') := by
  unfold Registry.register
  rw [h.keys_eq, hnames]
  split
  · exact ⟨rfl, h⟩
  · generalize Point.ofDeclaration env d = x at hpoints ⊢
    generalize Point.ofDeclaration env d' = x' at hpoints ⊢
    cases hpoints with
    | ok hp => exact ⟨rfl, h.addAll hp⟩
    | error e => exact ⟨rfl, h⟩

theorem refresh (h : Respelled r r') (env : Environment) :
    (r.refresh env).Agree Respelled (r'.refresh env) := by
  have htraverse : Agree Respelled (Dictionary.traverse (Point.refresh env) r)
      (Dictionary.traverse (Point.refresh env) r') := by
    have hentries : Agree (List.Forall₂ fun e e' : String × Point =>
          e.1 = e'.1 ∧ e.2.Respelled e'.2)
        (r.entries.mapM fun e => (e.2.refresh env).map (e.1, ·))
        (r'.entries.mapM fun e => (e.2.refresh env).map (e.1, ·)) :=
      .mapM h fun e e' ⟨hname, hp⟩ => (hp.refresh env).map fun _ _ hq => ⟨hname, hq⟩
    unfold Dictionary.traverse
    generalize (r.entries.mapM fun e => (e.2.refresh env).map (e.1, ·)) = x at hentries ⊢
    generalize (r'.entries.mapM fun e => (e.2.refresh env).map (e.1, ·)) = x' at hentries ⊢
    cases hentries with
    | ok hes => exact .ok hes
    | error e => exact .error e
  unfold Registry.refresh
  generalize Dictionary.traverse (Point.refresh env) r = x at htraverse ⊢
  generalize Dictionary.traverse (Point.refresh env) r' = x' at htraverse ⊢
  cases htraverse with
  | ok hr => exact ⟨rfl, hr⟩
  | error e => exact ⟨rfl, h⟩

theorem elaborate (h : Respelled r r') (t : Table) :
    (r.elaborate t).Agree (fun s s' => Respelled s.1 s'.1 ∧ s.2 = s'.2) (r'.elaborate t) := by
  obtain ⟨hanswer, hstate⟩ := h.refresh t.environment
  simp only [Registry.elaborate, ← hanswer, ← hstate.bindings_eq]
  split
  · exact ⟨rfl, hstate, rfl⟩
  · split <;> exact ⟨rfl, hstate, rfl⟩

end Respelled

end Registry

namespace Session

open Point (Declaration Error)

/-- The same parameters, and points that differ at most in spelling. -/
structure Respelled (s s' : Session) : Prop where
  parameters : s.parameters = s'.parameters
  points : s.points.Respelled s'.points

variable {s s' : Session}

theorem agree_onPoints {t : Table} {o o' : Outcome Registry Error Unit}
    (h : o.Agree Registry.Respelled o') {r r' : Registry} :
    (onPoints ⟨t, r⟩ o).Agree Respelled (onPoints ⟨t, r'⟩ o') :=
  ⟨congrArg (Except.map fun _ => []) h.answer, rfl, h.state⟩

/-- An operation answers the same in both sessions, and leaves them as they were related. -/
theorem Respelled.perform (h : Respelled s s') (o : Operation) :
    (s.perform o).Agree Respelled (s'.perform o) := by
  obtain ⟨t, r⟩ := s
  obtain ⟨t', r'⟩ := s'
  obtain ⟨rfl : t = t', hpoints : r.Respelled r'⟩ := h
  cases o with
  | add | addHeading | assign | applyOverrides | markConsumed => exact ⟨rfl, rfl, hpoints⟩
  | register d =>
    have hsame (ps : List Point) : List.Forall₂ Point.Respelled ps ps :=
      List.forall₂_same.mpr fun p _ => .same p
    exact agree_onPoints (hpoints.register rfl (.refl hsame _))
  | refresh => exact agree_onPoints (hpoints.refresh t.environment)
  | elaborate =>
    obtain ⟨hanswer, hstate, htable⟩ := hpoints.elaborate t
    exact ⟨hanswer, htable, hstate⟩

theorem Respelled.run (h : Respelled s s') (os : List Operation) :
    Respelled (s.run os) (s'.run os) := by
  induction os generalizing s s' with
  | nil => exact h
  | cons o os ih => exact ih (h.perform o).state

/-- Nothing that a host can see of the sessions is different, now or in its next answer. -/
structure Shows (s s' : Session) : Prop where
  parameters : s.parameters = s'.parameters
  points : s.points.shown = s'.points.shown
  answers : ∀ o, (s.perform o).answer = (s'.perform o).answer

theorem Respelled.shows (h : Respelled s s') : s.Shows s' :=
  ⟨h.parameters, h.points.shown_eq, fun o => (h.perform o).answer⟩

/-- Whether numbers are written as numbers or as their digits, a declaration is accepted or
refused with the same error, and whatever is performed later shows the same records and the
same symbolic fields, and answers the same. -/
theorem register_respelled (t : Table) (r : Registry) {d d' : Declaration} (h : d.Respelled d') :
    (r.register t.environment d).answer = (r.register t.environment d').answer ∧
      ∀ os, Shows ((Session.mk t (r.register t.environment d).state).run os)
        ((Session.mk t (r.register t.environment d').state).run os) := by
  have hregister := (Registry.Respelled.refl r).register h.names_eq (h.ofDeclaration t.environment)
  refine ⟨hregister.answer, fun os => ?_⟩
  have hstart : Respelled ⟨t, (r.register t.environment d).state⟩
      ⟨t, (r.register t.environment d').state⟩ := ⟨rfl, hregister.state⟩
  exact (hstart.run os).shows

/-- A source whose numbers are all written as numbers. -/
def numberedSource : Endpoint.Declaration where
  name := "Out"
  clock := "Clk"
  reset := "Reset"
  data := { name := "Q", width := .text "WIDTH", symbolWidth := some (.number 8) }
  packets := some { usePackets := .number 1, useEmpty := some (.number 0) }
  error := some { width := .number 18446744073709551615 }

/-- The same source, with digits for some of the numbers. -/
def spelledSource : Endpoint.Declaration :=
  { numberedSource with
    data := { name := "Q", width := .text "WIDTH", symbolWidth := some (.text "8") }
    packets := some { usePackets := .text "1", useEmpty := some (.number 0) }
    error := some { width := .text "18446744073709551615" } }

theorem respelled_spelledSource :
    Declaration.Respelled (.source numberedSource) (.source spelledSource) :=
  .source (.intro (.intro (.same _) (.some (.digits 8)))
    (.some (.intro (.digits 1) (.some (.same _)))) .none
    (.some (.intro (.digits 18446744073709551615))))

/-- A wide data path for the sources. -/
def wideSourceTable : Table := Point.exampleTable [Showcase.natural "WIDTH" 16]

/-- A registry with the source alone. -/
def registerSource (d : Endpoint.Declaration) : Outcome Registry Point.Error Unit :=
  Registry.register {} wideSourceTable.environment (.source d)

theorem register_respelled_spelledSource :
    Declaration.Respelled (.source numberedSource) (.source spelledSource) ∧
      (registerSource spelledSource).answer = .ok () ∧
      (registerSource numberedSource).answer = (registerSource spelledSource).answer ∧
      (registerSource spelledSource).state.symbolicFields = [("Out", "data width", "WIDTH")] ∧
      ((registerSource spelledSource).state.get? "Out").bind
        (fun p => p.record.endpoint?.map fun e => (e.dataWidth, e.symbolWidth))
          = some (⟨16, some "WIDTH"⟩, ⟨8, none⟩) ∧
      (registerSource numberedSource).state.values ≠ (registerSource spelledSource).state.values ∧
      ∀ os, Shows (Session.run ⟨wideSourceTable, (registerSource numberedSource).state⟩ os)
        (Session.run ⟨wideSourceTable, (registerSource spelledSource).state⟩ os) := by
  have h := register_respelled wideSourceTable {} respelled_spelledSource
  exact ⟨respelled_spelledSource, rfl, h.1, rfl, rfl, by decide, h.2⟩

end Session

end Interconnect
