import Interconnect.Proofs.Elaboration
import Interconnect.Proofs.Outline
import Interconnect.Proofs.Spelling
import Interconnect.Proofs.Stores
import Interconnect.Proofs.Supplied
import Mathlib.Data.List.Induction

/-! # Reading a dump back

A dump shows the parameters line by line. Where no text has a quote in it, the value on a line
and the remark that it was consumed can be told from what follows them, and the values settle
the connection points. What two states of one interface can differ in without a difference in
their dumps is whether a value was supplied, and whether a heading was consumed.
-/

namespace Interconnect

open Outline (Row rowsAll)
open Parameter (Kind Overrides Table Value)

/-- No quote stands in the text. -/
def Text.QuoteFree (s : String) : Prop := '"' ∉ s.toList

instance (s : String) : Decidable (Text.QuoteFree s) := inferInstanceAs (Decidable ('"' ∉ s.toList))

/-- A text that is written for a value has no quotes. -/
def Scalar.QuoteFree (raw : Scalar) : Prop := ∀ s ∈ raw.text?, Text.QuoteFree s

instance (raw : Scalar) : Decidable raw.QuoteFree :=
  inferInstanceAs (Decidable (∀ s ∈ raw.text?, Text.QuoteFree s))

/-- Equal character lists that begin with characters of one class, and go on with another, begin
alike. -/
theorem append_inj_of_all {p : Char → Bool} {xs ys r s : List Char} (hx : ∀ c ∈ xs, p c)
    (hy : ∀ c ∈ ys, p c) (hr : ∀ c ∈ r.head?, p c = false) (hs : ∀ c ∈ s.head?, p c = false)
    (h : xs ++ r = ys ++ s) : xs = ys ∧ r = s := by
  have hstop {r : List Char} (hr : ∀ c ∈ r.head?, p c = false) : r.takeWhile p = [] := by
    cases r with
    | nil => rfl
    | cons c r => exact List.takeWhile_cons_of_neg (by simp [hr c rfl])
  have hfirst := congrArg (List.takeWhile p) h
  rw [List.takeWhile_append_of_pos hx, List.takeWhile_append_of_pos hy, hstop hr, hstop hs,
    List.append_nil, List.append_nil] at hfirst
  subst hfirst
  exact ⟨rfl, List.append_cancel_left h⟩

namespace Parameter

variable {p p' : Parameter} {d : Declaration} {r s : List Char}

/-- A parameter as far as its line in a dump goes. -/
def shown (p : Parameter) : Parameter :=
  { p with supplied := false, consumed := p.consumed && p.kind != .heading }

/-- The line of the parameter can be told from that of another value, or another mark. -/
structure Legible (p : Parameter) : Prop where
  consumed : p.consumed = true → p.derived = true
  quoteFree : ∀ s, p.value = .text s → Text.QuoteFree s

/-- What stands before the value. -/
def label (p : Parameter) : String := s!"Parameter: {p.name} : {p.kind} := "

/-- The remarks that the declaration fixes. -/
def remarks (p : Parameter) : String :=
  remark "allowed range" (p.allowed.map Allowed.render) ++ remark "units" p.units
    ++ remark "description" p.description

/-- The remark on a derived parameter. -/
def origin (p : Parameter) : String :=
  if p.derived then if p.consumed then ", derived (consumed)" else ", derived" else ""

theorem toList_line (h : p.kind ≠ .heading) : p.line.toList
    = p.label.toList ++ (p.value.render.toList ++ (p.remarks.toList ++ p.origin.toList)) := by
  have hline : p.line = p.label ++ (p.value.render ++ (p.remarks ++ p.origin)) := by
    unfold line
    split
    next hk => exact absurd hk h
    next => simp only [label, remarks, origin, String.append_assoc]; rfl
  rw [hline, String.toList_append, String.toList_append, String.toList_append]

@[simp] theorem line_shown (p : Parameter) : p.shown.line = p.line := by
  obtain ⟨name, kind, allowed, units, description, derived, value, consumed, supplied⟩ := p
  cases kind <;> simp [line, shown]

theorem shown_eq (h : p.Represents d) (h' : p'.Represents d) (hv : p.value = p'.value)
    (hc : p.kind ≠ .heading → p.consumed = p'.consumed) : p.shown = p'.shown := by
  have hkind : p.kind = p'.kind := Option.some.inj (h.kind.symm.trans h'.kind)
  have hmark : (p.consumed && p.kind != .heading) = (p'.consumed && p'.kind != .heading) := by
    rw [← hkind]
    by_cases hh : p.kind = .heading
    · simp [hh]
    · rw [hc hh]
  rw [shown, shown, hmark, h.name, h'.name, hkind, h.allowed, h'.allowed, h.units, h'.units,
    h.description, h'.description, h.derived, h'.derived, hv]

/-- The characters may follow a number: they do not begin with a digit. -/
def Follows (r : List Char) : Prop := ∀ c ∈ r.head?, c.isDigit = false

theorem follows_cons {c : Char} (hc : c.isDigit = false) : Follows (c :: r) := by
  rintro _ ⟨⟩
  exact hc

theorem follows_remark (label : String) (text : Option String) (hr : Follows r) :
    Follows ((remark label text).toList ++ r) := by
  cases text with
  | none => exact hr
  | some text =>
    simp only [remark, String.toList_append, List.append_assoc]
    exact follows_cons (by decide)

theorem follows_remarks (p : Parameter) (r : List Char) :
    Follows (p.remarks.toList ++ (p.origin.toList ++ '\n' :: r)) := by
  have horigin : Follows (p.origin.toList ++ '\n' :: r) := by
    unfold origin
    split
    · split <;> exact follows_cons (by decide)
    · exact follows_cons (by decide)
  simp only [remarks, String.toList_append, List.append_assoc]
  exact follows_remark _ _ (follows_remark _ _ (follows_remark _ _ horigin))

theorem Value.render_append_inj {v w : Value} (hkind : v.kind = w.kind)
    (hv : ∀ s, v = .text s → Text.QuoteFree s) (hw : ∀ s, w = .text s → Text.QuoteFree s)
    (hr : Follows r) (hs : Follows s) (h : v.render.toList ++ r = w.render.toList ++ s) :
    v = w ∧ r = s := by
  cases v with
  | natural m =>
    cases w with
    | natural n =>
      have hdigits (n : UInt64) : ∀ c ∈ (toString n).toList, c.isDigit = true :=
        (Text.isDigits_iff.mp (Text.isDigits_toString n)).2
      obtain ⟨htext, hrest⟩ := append_inj_of_all (hdigits m) (hdigits n) hr hs h
      exact ⟨congrArg _ (Text.toString_inj.mp (String.toList_inj.mp htext)), hrest⟩
    | boolean | text | absent => cases hkind
  | boolean b =>
    cases w with
    | boolean b' =>
      have htrue : (Value.boolean true).render.toList = ['t', 'r', 'u', 'e'] := by decide
      have hfalse : (Value.boolean false).render.toList = ['f', 'a', 'l', 's', 'e'] := by decide
      cases b <;> cases b' <;> simp_all
    | natural | text | absent => cases hkind
  | text a =>
    cases w with
    | text b =>
      have hquoted (s : String) (r : List Char) :
          (Value.text s).render.toList ++ r = '"' :: (s.toList ++ '"' :: r) := by
        simp [Value.render]
      rw [hquoted, hquoted] at h
      have hfree {s : String} (hs : Text.QuoteFree s) : ∀ c ∈ s.toList, (c != '"') = true := by
        intro c hc
        rw [bne_iff_ne]
        rintro rfl
        exact hs hc
      obtain ⟨htext, hrest⟩ := append_inj_of_all (hfree (hv a rfl)) (hfree (hw b rfl)) (by simp)
        (by simp) (List.cons.inj h).2
      exact ⟨congrArg _ (String.toList_inj.mp htext), (List.cons.inj hrest).2⟩
    | natural | boolean | absent => cases hkind
  | absent =>
    cases w with
    | absent => exact ⟨rfl, List.append_cancel_left h⟩
    | natural | boolean | text => cases hkind

theorem origin_append_inj (hd : p.derived = p'.derived) (hp : p.Legible) (hp' : p'.Legible)
    (h : p.origin.toList ++ '\n' :: r = p'.origin.toList ++ '\n' :: s) :
    p.consumed = p'.consumed ∧ r = s := by
  have hundone {p : Parameter} (hp : p.Legible) (hd : p.derived = false) : p.consumed = false :=
    Bool.eq_false_iff.mpr fun hc => by simp [hp.consumed hc] at hd
  cases hderived : p.derived with
  | false =>
    rw [hundone hp hderived, hundone hp' (hd ▸ hderived)]
    simpa [origin, ← hd, hderived] using h
  | true =>
    cases hc : p.consumed <;> cases hc' : p'.consumed <;>
      simp_all [origin]

/-- Parameters of one declaration are told apart by their lines, but for what is not shown. -/
theorem line_append_inj (h : p.Represents d) (h' : p'.Represents d) (hp : p.Legible)
    (hp' : p'.Legible) (heq : p.line.toList ++ '\n' :: r = p'.line.toList ++ '\n' :: s) :
    p.shown = p'.shown ∧ r = s := by
  have hkind : p.kind = p'.kind := Option.some.inj (h.kind.symm.trans h'.kind)
  have hname : p.name = p'.name := h.name.trans h'.name.symm
  have hvalues : p.value.kind = p'.value.kind := by rw [h.value, h'.value, hkind]
  by_cases hheading : p.kind = .heading
  · have hheading' : p'.kind = .heading := hkind ▸ hheading
    have habsent {v : Value} (hv : v.kind = .heading) : v = .absent := by
      cases v <;> first | rfl | cases hv
    rw [line, line, hheading, hheading', hname] at heq
    refine ⟨shown_eq h h' ?_ fun hn => absurd hheading hn, ?_⟩
    · rw [habsent (h.value.trans hheading), habsent (h'.value.trans hheading')]
    · exact (List.cons.inj (List.append_cancel_left heq)).2
  · have hremarks : p.remarks = p'.remarks := by
      rw [remarks, remarks, h.allowed, h'.allowed, h.units, h'.units, h.description, h'.description]
    have hlabel : p.label = p'.label := by rw [label, label, hname, hkind]
    rw [toList_line hheading, toList_line (hkind ▸ hheading), hlabel, hremarks] at heq
    simp only [List.append_assoc] at heq
    obtain ⟨hv, heq⟩ := Value.render_append_inj hvalues hp.quoteFree hp'.quoteFree
      (hremarks ▸ follows_remarks p r) (follows_remarks p' s) (List.append_cancel_left heq)
    obtain ⟨hc, hrest⟩ := origin_append_inj (h.derived.trans h'.derived.symm) hp hp'
      (List.append_cancel_left heq)
    exact ⟨shown_eq h h' hv fun _ => hc, hrest⟩

namespace Table

variable {t t' : Table} {ds : List Declaration} {name : String} {raw : Scalar}
  {overrides : Overrides}

/-- A table as far as its lines in a dump go. -/
def shown (t : Table) : Table := ⟨t.entries.map fun e => (e.1, e.2.shown)⟩

theorem environment_shown (t : Table) : t.shown.environment = t.environment.unsupplied := by
  ext name : 1
  have hget : t.shown.get? name = (t.get? name).map Parameter.shown :=
    Dictionary.lookup_map_entries (fun e : String × Parameter => e.2.shown) t.entries name
  rw [environment, hget, Environment.unsupplied, environment, Option.map_map, Option.map_map]
  rfl

/-- Every parameter has a legible line. -/
def Legible (t : Table) : Prop := ∀ name p, t.get? name = some p → p.Legible

theorem quoteFree_render (h : raw.QuoteFree) : Text.QuoteFree raw.render := by
  cases raw with
  | flag b => cases b <;> decide
  | number n =>
    intro hquote
    have hdigit := (Text.isDigits_iff.mp (Text.isDigits_toString n)).2 _ hquote
    exact absurd hdigit (by decide)
  | text s => exact h s rfl

theorem quoteFree_of_convert? {kind : Kind} {s : String} (h : raw.QuoteFree)
    (hv : kind.convert? raw = some (.text s)) : Text.QuoteFree s := by
  cases hkind : Kind.kind_of_convert? hv
  obtain rfl : raw.render = s := by
    cases raw <;> cases hv <;> rfl
  exact quoteFree_render h

theorem Legible.update (h : t.Legible) (name : String) (hraw : raw.QuoteFree) :
    (t.update name raw).state.Legible := by
  intro other p' hp'
  obtain ⟨p, hp, rfl | ⟨-, v, hv, rfl⟩⟩ := exists_of_get?_update hp'
  · exact h other p' hp
  · refine ⟨(h other p hp).consumed, fun s hs => ?_⟩
    obtain rfl : v = .text s := hs
    exact quoteFree_of_convert? hraw hv

theorem Legible.applyOverrides (h : t.Legible) (ho : ∀ o ∈ overrides, o.2.QuoteFree) :
    (t.applyOverrides overrides).state.Legible := by
  induction overrides generalizing t with
  | nil => exact h
  | cons o overrides ih =>
    rw [List.forall_mem_cons] at ho
    have hstep := h.update o.1 ho.1
    rw [Table.applyOverrides, Outcome.forEach_cons]
    split
    · exact ih hstep ho.2
    · exact hstep

theorem Legible.consumed {r : Registry} (h : t.Legible) :
    (t.consumed (Registry.firstUses (r.bindings t))).Legible := by
  intro name p' hp'
  rw [get?_consumed fun _ hname => Registry.contains_of_mem_firstUses hname] at hp'
  obtain ⟨p, hp, rfl⟩ := Option.map_eq_some_iff.mp hp'
  split
  next hname =>
    refine ⟨fun _ => ?_, (h name p hp).quoteFree⟩
    have hunread := (Registry.mem_firstUses_bindings_iff.mp hname).1
    rw [unread, hp] at hunread
    exact (Bool.and_eq_true_iff.mp hunread).1
  next => exact h name p hp

theorem shown_eq_of_written {es es' : List (String × Parameter)} {r s : List Char}
    (h : List.Forall₂ (fun d e => e.1 = d.name ∧ e.2.Represents d) ds es)
    (h' : List.Forall₂ (fun d e => e.1 = d.name ∧ e.2.Represents d) ds es')
    (hl : ∀ e ∈ es, e.2.Legible) (hl' : ∀ e ∈ es', e.2.Legible)
    (heq : Row.written (es.map fun e => .line 1 e.2.line) ++ r
      = Row.written (es'.map fun e => .line 1 e.2.line) ++ s) :
    es.map (fun e => (e.1, e.2.shown)) = es'.map (fun e => (e.1, e.2.shown)) ∧ r = s := by
  induction h generalizing es' with
  | nil =>
    cases h'
    exact ⟨rfl, heq⟩
  | @cons d e ds es hd _ ih =>
    cases h' with
    | @cons _ e' _ es' hd' hrest =>
      rw [List.forall_mem_cons] at hl hl'
      simp only [List.map_cons, Row.written_cons, Row.chars, List.append_assoc,
        List.cons_append] at heq
      obtain ⟨hshown, heq⟩ := line_append_inj hd.2 hd'.2 hl.1 hl'.1 (List.append_cancel_left heq)
      obtain ⟨hes, hr⟩ := ih hrest hl.2 hl'.2 heq
      rw [List.map_cons, List.map_cons, hd.1, hd'.1, hshown, hes]
      exact ⟨rfl, hr⟩

end Table

end Parameter

namespace Interface

variable {d : Description} {host : Overrides} {i j : Interface} {ops ops' : List Operation}

/-- The texts that parameters hold have no quotes. -/
def QuoteFree (i : Interface) : Prop :=
  ∀ p ∈ i.parameters.values, ∀ s ∈ p.value.text?, Text.QuoteFree s

instance (i : Interface) : Decidable i.QuoteFree :=
  inferInstanceAs (Decidable (∀ p ∈ i.parameters.values, ∀ s ∈ p.value.text?, Text.QuoteFree s))

/-- The overrides of an operation, whether they take effect or not. -/
def Operation.overrides : Operation → Overrides
  | .update overrides => overrides
  | .elaborate => []

/-- The texts that a list of operations assigns have no quotes. -/
def AssignsQuoteFree (ops : List Operation) : Prop :=
  ∀ op ∈ ops, ∀ o ∈ op.overrides, o.2.QuoteFree

instance (ops : List Operation) : Decidable (AssignsQuoteFree ops) :=
  inferInstanceAs (Decidable (∀ op ∈ ops, ∀ o ∈ op.overrides, o.2.QuoteFree))

/-- An interface as far as its dump goes. -/
def shown (i : Interface) : Interface := { i with parameters := i.parameters.shown }

theorem evolves_step (i : Interface) (op : Operation) :
    i.parameters.Evolves (i.step op).parameters := by
  cases op with
  | update overrides =>
    rw [step]
    cases hok : (i.update overrides).answer with
    | ok =>
      obtain ⟨t, r, ht, -, hstate⟩ := update_of_ok hok
      obtain ⟨-, rfl⟩ := Outcome.toExcept_eq_ok_iff.mp ht
      rw [hstate]
      exact Table.evolves_applyOverrides i.parameters overrides
    | error e =>
      rw [state_update_of_error hok]
      exact .refl i.parameters
  | elaborate => exact Table.evolves_elaborate i.points i.parameters

theorem evolves_run (i : Interface) (ops : List Operation) :
    i.parameters.Evolves (i.run ops).parameters := by
  induction ops generalizing i with
  | nil => exact .refl i.parameters
  | cons op ops ih => exact (evolves_step i op).trans (ih (i.step op))

theorem represents_run (h : resolve d host = .ok i) (ops : List Operation) :
    (i.run ops).parameters.Represents d.parameters := by
  obtain ⟨declared, described, hdeclared, hdescribed, hp, -, -⟩ := resolve_eq_ok_iff.mp h
  obtain ⟨-, rfl⟩ := Outcome.toExcept_eq_ok_iff.mp hdescribed
  obtain ⟨-, hp⟩ := Outcome.toExcept_eq_ok_iff.mp hp
  have hevolves : declared.Evolves i.parameters :=
    hp ▸ (Table.evolves_applyOverrides _ _).trans (Table.evolves_applyOverrides _ _)
  exact (hevolves.trans (evolves_run i ops)).represents _
    (Table.represents_of_ofDeclarations hdeclared)

theorem legible_step (h : Registry.ofDeclarations i.parameters.environment d.points = .ok i.points)
    (hl : i.parameters.Legible) {op : Operation}
    (hop : ∀ o ∈ op.overrides, o.2.QuoteFree) :
    (i.step op).parameters.Legible := by
  cases op with
  | update overrides =>
    rw [step]
    cases hok : (i.update overrides).answer with
    | ok =>
      obtain ⟨t, r, ht, -, hstate⟩ := update_of_ok hok
      obtain ⟨-, rfl⟩ := Outcome.toExcept_eq_ok_iff.mp ht
      rw [hstate]
      exact hl.applyOverrides hop
    | error e => rwa [state_update_of_error hok]
  | elaborate =>
    rw [step, elaborate_eq h]
    exact hl.consumed

theorem legible_run (h : resolve d host = .ok i) (hi : i.QuoteFree) (hops : AssignsQuoteFree ops) :
    (i.run ops).parameters.Legible := by
  induction ops using List.reverseRecOn with
  | nil =>
    intro name p hp
    have hmem : p ∈ i.parameters.values := List.mem_map_of_mem (Dictionary.mem_entries_of_get? hp)
    refine ⟨fun hc => ?_, fun s hs => hi p hmem s (hs ▸ rfl)⟩
    have hunmarked := congrArg (fun i : Interface => i.parameters.get? name) (unmarked_of_resolve h)
    simp only [unmarked, Table.get?_unmarked] at hunmarked
    change i.parameters.get? name = some p at hp
    rw [hp] at hunmarked
    rw [← Option.some.inj hunmarked] at hc
    cases hc
  | append_singleton ops op ih =>
    rw [AssignsQuoteFree, List.forall_mem_append] at hops
    have hrun : i.run (ops ++ [op]) = (i.run ops).step op := List.foldl_append ..
    rw [hrun]
    exact legible_step (ofDeclarations_run h ops) (ih hops.1)
      (hops.2 op (List.mem_singleton_self op))

theorem component_run (h : resolve d host = .ok i) (ops : List Operation) :
    (i.run ops).component = i.component := by
  obtain ⟨-, -, -, -, -, -, hc⟩ := resolve_eq_ok_iff.mp h
  obtain ⟨-, -, -, -, -, -, hc'⟩ := resolve_eq_ok_iff.mp (resolve_applied h ops)
  exact hc'.symm.trans hc

/-- The lines of a dump before those of the parameters. -/
def header (c : Component) : List Row :=
  rowsAll 0
    (.line (s!"Component: {c.name}" ++ if c.version.isEmpty then "" else s!" version {c.version}")
      :: if c.description.isEmpty then [] else [.nested [.line c.description]])
    ++ [.blank, .line 0 "Parameters"]

theorem rowsAll_outline (i : Interface) : rowsAll 0 i.outline =
    header i.component ++ i.parameters.entries.map (fun e => .line 1 e.2.line)
      ++ rowsAll 0 (.blank :: i.points.outline) := by
  have hlines (es : List (String × Parameter)) :
      rowsAll 1 ((es.map Prod.snd).flatMap Parameter.outline)
        = es.map fun e => .line 1 e.2.line := by
    induction es with
    | nil => rfl
    | cons e es ih => exact congrArg (Row.line 1 e.2.line :: ·) ih
  have hparameters : rowsAll 0 (.blank :: i.parameters.outline)
      = [.blank, .line 0 "Parameters"] ++ i.parameters.entries.map fun e => .line 1 e.2.line := by
    rw [← hlines, Table.outline]
    simp only [rowsAll, Outline.rows, List.append_nil]
    rfl
  rw [outline, Outline.rowsAll_append, Outline.rowsAll_append, hparameters, header,
    ← List.append_assoc]

theorem dump_shown (i : Interface) : i.shown.dump = i.dump := by
  have hlines : i.shown.parameters.entries.map (fun e => Row.line 1 e.2.line)
      = i.parameters.entries.map fun e => .line 1 e.2.line := by
    rw [shown, Table.shown, List.map_map]
    exact List.map_congr_left fun e _ => by simp
  rw [← String.toList_inj, toList_dump, toList_dump, rowsAll_outline, rowsAll_outline, hlines]
  rfl

theorem points_run_eq (h : resolve d host = .ok i)
    (hshown : (i.run ops).parameters.shown = (i.run ops').parameters.shown) :
    (i.run ops).points = (i.run ops').points := by
  have henv := congrArg Table.environment hshown
  rw [Table.environment_shown, Table.environment_shown] at henv
  exact Registry.eq_of_unsupplied_eq (ofDeclarations_run h ops) (ofDeclarations_run h ops') henv

/-- Two states of an interface whose texts have no quotes have the same dump exactly when they
are equal but for what was supplied, and for the marks of headings. The lines of the parameters
tell the states apart. The points follow from the parameters, since both states resolve the same
declarations, so nothing is asked of the lines of a point. -/
theorem dump_eq_iff (h : resolve d host = .ok i) (hi : i.QuoteFree)
    (hops : AssignsQuoteFree ops) (hops' : AssignsQuoteFree ops') :
    (i.run ops).dump = (i.run ops').dump ↔ (i.run ops).shown = (i.run ops').shown := by
  constructor
  · intro heq
    rw [← String.toList_inj, toList_dump, toList_dump, rowsAll_outline, rowsAll_outline,
      component_run h, component_run h] at heq
    simp only [Row.written_append, List.append_assoc] at heq
    have hlegible {ops : List Operation} (hops : AssignsQuoteFree ops) :
        ∀ e ∈ (i.run ops).parameters.entries, e.2.Legible := fun e he =>
      legible_run h hi hops e.1 e.2
        ((Dictionary.get?_eq_some_iff (represents_run h ops).nodup).mpr he)
    obtain ⟨hentries, -⟩ := Table.shown_eq_of_written (represents_run h ops).entries
      (represents_run h ops').entries (hlegible hops) (hlegible hops')
      (List.append_cancel_left heq)
    have hparameters : (i.run ops).parameters.shown = (i.run ops').parameters.shown :=
      congrArg Dictionary.mk hentries
    rw [shown, shown, component_run h, component_run h, hparameters, points_run_eq h hparameters]
  · intro heq
    rw [← dump_shown, heq, dump_shown]

theorem dump_eq_iff_pendingSink :
    ∃ i, resolve pendingSink [] = .ok i ∧ i.QuoteFree ∧ AssignsQuoteFree suppliedRun ∧
      AssignsQuoteFree [.elaborate] ∧
      ((i.run suppliedRun).dump = (i.run [.elaborate]).dump
        ↔ (i.run suppliedRun).shown = (i.run [.elaborate]).shown) :=
  have resolved : resolve pendingSink [] = .ok _ := rfl
  ⟨_, resolved, by decide, by decide, by decide,
    dump_eq_iff resolved (by decide) (by decide) (by decide)⟩

/-- A derived parameter, and a heading that a handshake waits for. -/
def hiddenMarks : Description where
  component := Showcase.component
  parameters :=
    [ { Showcase.natural "DEPTH" 8 with derived := true },
      { Parameter.Declaration.heading "MODE" with derived := true },
      Showcase.natural "WIDTH" 16 ]
  points := [.sink Point.exampleSink]
  overrides := []

/-- A run that supplies the value declared already, and reads the heading. -/
def hiddenRun : List Operation := [.update [("DEPTH", .number 8)], .elaborate]

/-- A dump shows neither that a value was supplied nor that a heading was consumed. -/
theorem dump_hides :
    ∃ i, resolve hiddenMarks [] = .ok i ∧ i.QuoteFree ∧ AssignsQuoteFree hiddenRun ∧
      (i.run hiddenRun).dump = (i.run []).dump ∧
      (i.run hiddenRun).parameters.values.map (fun p => (p.name, p.consumed, p.supplied))
        = [("DEPTH", false, true), ("MODE", true, false), ("WIDTH", false, false)] ∧
      (i.run []).parameters.values.map (fun p => (p.name, p.consumed, p.supplied))
        = [("DEPTH", false, false), ("MODE", false, false), ("WIDTH", false, false)] :=
  ⟨_, rfl, by decide, by decide, by decide +kernel, rfl, rfl⟩

end Interface

end Interconnect
