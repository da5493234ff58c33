import Interconnect.Proofs.Lifecycle
import Interconnect.Proofs.SessionStores

/-! # Parameters by name

A table takes a parameter under any new name, but a counting or a switching field looks a name
up only when it begins with an ASCII letter or an underscore. A parameter with such a name is
read by every field of its kind that holds the name, and a parameter with another name by none
of them. A handshake looks up every name that is not the name of a mode.
-/

namespace Interconnect

open Endpoint (Handshake Mode)
open Parameter (Environment Table)

namespace Resolved

variable {env : Environment} {name point field : String}

/-- A field that holds the name of a parameter, whatever its point and its label, resolves to the
number and keeps the name. -/
structure ReadsNumber (env : Environment) (name : String) (n : UInt64) : Prop where
  shaped : ∀ point field, natural? env point field (.text name) = .ok (some ⟨n, some name⟩)
  required : ∀ point field, number env point field (.text name) = .ok ⟨n, some name⟩
  optional : ∀ point field default,
    natural env point field (some (.text name)) default = .ok ⟨n, some name⟩

structure ReadsFlag (env : Environment) (name : String) (b : Bool) : Prop where
  shaped : ∀ point field, flag? env point field (.text name) = .ok (some ⟨b, some name⟩)
  optional : ∀ point field default,
    flag env point field (some (.text name)) default = .ok ⟨b, some name⟩

/-- The name is neither a literal nor looked up, and is refused as a width. -/
structure NotLookedUp (env : Environment) (name : String) : Prop where
  number : ∀ point field, natural? env point field (.text name) = .ok none
  required : ∀ point field,
    Resolved.number env point field (.text name) = .error (.invalidWidth point field name)
  optional : ∀ point field default, natural env point field (some (.text name)) default
    = .error (.invalidWidth point field name)
  switch : ∀ point field, flag? env point field (.text name) = .ok none
  optionalSwitch : ∀ point field default, flag env point field (some (.text name)) default
    = .error (.invalidWidth point field name)

theorem readsNumber_of_beginsName (hs : Text.BeginsName name) {r : Parameter.Reading}
    (hr : env name = some r) {n : UInt64} (hv : r.value = .natural n) :
    ReadsNumber env name n := by
  have hdenotes : (Reference.ofNumber (.text name)).Denotes env Parameter.Value.natural?
      ⟨n, some name⟩ := by
    rw [Reference.ofNumber_eq_symbol_iff.mpr ⟨rfl, hs⟩]
    exact .symbol hr (by rw [hv]; rfl)
  constructor
  case shaped => exact fun _ _ => ofReference?_eq_ok_some_iff.mpr hdenotes
  case required => exact fun _ _ => number_eq_ok_iff.mpr hdenotes
  case optional => exact fun _ _ _ => natural_eq_ok_iff.mpr hdenotes

theorem readsFlag_of_beginsName (hs : Text.BeginsName name) {r : Parameter.Reading}
    (hr : env name = some r) {b : Bool} (hv : r.value = .boolean b) :
    ReadsFlag env name b := by
  have hdenotes : (Reference.ofFlag (.text name)).Denotes env Parameter.Value.boolean?
      ⟨b, some name⟩ := by
    rw [Reference.ofFlag_eq_symbol_iff.mpr ⟨rfl, hs⟩]
    exact .symbol hr (by rw [hv]; rfl)
  constructor
  case shaped => exact fun _ _ => ofReference?_eq_ok_some_iff.mpr hdenotes
  case optional => exact fun _ _ _ => flag_eq_ok_iff.mpr hdenotes

theorem notLookedUp_of_not_beginsName (env : Environment) (hd : Text.isDigits name = false)
    (hs : ¬ Text.BeginsName name) : NotLookedUp env name := by
  have hsymbol : Text.isSymbol name = false :=
    Bool.eq_false_iff.mpr fun h => hs (Text.isSymbol_iff.mp h)
  have hnumber : Reference.ofNumber (.text name) = .malformed := by
    simp [Reference.ofNumber, hd, hsymbol]
  have hzero : name ≠ "0" := by rintro rfl; cases hd
  have hone : name ≠ "1" := by rintro rfl; cases hd
  have hflag : Reference.ofFlag (.text name) = .malformed := by
    simp [Reference.ofFlag, hzero, hone, hsymbol]
  have hnatural? (point field : String) : natural? env point field (.text name) = .ok none := by
    rw [natural?, hnumber]; rfl
  have hflag? (point field : String) : flag? env point field (.text name) = .ok none := by
    rw [flag?, hflag]; rfl
  constructor
  case number => exact hnatural?
  case required => intro point field; rw [Resolved.number, hnatural?]; rfl
  case optional => intro point field _; rw [natural, Resolved.number, hnatural?]; rfl
  case switch => exact hflag?
  case optionalSwitch => intro point field _; rw [flag, hflag?]; rfl

end Resolved

namespace Parameter

variable {p : Parameter}

/-- What the fields that hold the name of the parameter make of it. -/
structure ReadByName (p : Parameter) (env : Environment) : Prop where
  number : p.kind = .natural → Text.BeginsName p.name →
    ∃ n, p.value = .natural n ∧ Resolved.ReadsNumber env p.name n
  flag : p.kind = .boolean → Text.BeginsName p.name →
    ∃ b, p.value = .boolean b ∧ Resolved.ReadsFlag env p.name b
  refused : Text.isDigits p.name = false → ¬ Text.BeginsName p.name →
    Resolved.NotLookedUp env p.name
  handshake : ∀ mode, p.Holds mode → Mode.ofName? p.name = none → ∀ point base,
    Handshake.resolve env point base (some p.name)
      = .ok (.ofMode base (some mode) (some p.name))

theorem Value.exists_natural_of_kind {v : Value} (h : v.kind = .natural) :
    ∃ n, v = .natural n := by
  cases v <;> simp_all [Value.kind]

theorem Value.exists_boolean_of_kind {v : Value} (h : v.kind = .boolean) :
    ∃ b, v = .boolean b := by
  cases v <;> simp_all [Value.kind]

theorem readByName_of_reading {env : Environment} (hr : env p.name = some p.reading)
    (hkind : p.value.kind = p.kind) : p.ReadByName env := by
  constructor
  case number =>
    intro hk hs
    obtain ⟨n, hv⟩ := Value.exists_natural_of_kind (hkind.trans hk)
    exact ⟨n, hv, Resolved.readsNumber_of_beginsName hs hr hv⟩
  case flag =>
    intro hk hs
    obtain ⟨b, hv⟩ := Value.exists_boolean_of_kind (hkind.trans hk)
    exact ⟨b, hv, Resolved.readsFlag_of_beginsName hs hr hv⟩
  case refused => exact Resolved.notLookedUp_of_not_beginsName env
  case handshake =>
    intro mode hm hname point base
    exact Handshake.resolve_eq_ok_iff.mpr (.symbol hname hr (holds_iff.mp hm))

theorem Table.Represents.get?_name {t : Table} {ds : List Declaration} (h : t.Represents ds)
    (hp : p ∈ t.values) : t.get? p.name = some p := by
  obtain ⟨⟨name, p⟩, he, rfl⟩ := List.mem_map.mp hp
  obtain ⟨d, -, hname, hd⟩ := exists_mem_of_forall₂ h.entries he
  rw [Dictionary.get?_eq_some_iff h.nodup, hd.name, ← hname]
  exact he

end Parameter

namespace Session

/-- Whatever a host has done to the parameters, each of them is read by the fields of its kind
that hold its name, as far as the name is one that such a field looks up. -/
theorem readByName_of_mem_parameters (os : List Operation) {p : Parameter}
    (hp : p ∈ ((start {}).run os).parameters.values) :
    p.ReadByName ((start {}).run os).parameters.environment := by
  have ht := (coherent_run os).parameters
  have hget := ht.get?_name hp
  refine Parameter.readByName_of_reading ?_ (ht.wellTyped _ p hget)
  rw [Table.environment, hget]
  rfl

/-- A number, a flag and the name of a mode, each under a name of its own. -/
def namedParameters : List Operation :=
  [ .add (Showcase.natural "_width" 8), .add (Showcase.flag "Framed" true),
    .add (Showcase.text "Ω" "no_ready"), .assign "_width" (.text "16") ]

theorem readByName_namedParameters :
    ∃ width framed mode : Parameter,
      width ∈ ((start {}).run namedParameters).parameters.values ∧
      framed ∈ ((start {}).run namedParameters).parameters.values ∧
      mode ∈ ((start {}).run namedParameters).parameters.values ∧
      Resolved.ReadsNumber ((start {}).run namedParameters).parameters.environment "_width" 16 ∧
      Resolved.ReadsFlag ((start {}).run namedParameters).parameters.environment "Framed" true ∧
      Handshake.resolve ((start {}).run namedParameters).parameters.environment "In" "D" (some "Ω")
        = .ok (.ofMode "D" (some .noReady) (some "Ω")) := by
  have hwidth : _ ∈ ((start {}).run namedParameters).parameters.values := .head _
  have hframed : _ ∈ ((start {}).run namedParameters).parameters.values := .tail _ (.head _)
  have hmode : _ ∈ ((start {}).run namedParameters).parameters.values :=
    .tail _ (.tail _ (.head _))
  refine ⟨_, _, _, hwidth, hframed, hmode, ?_, ?_, ?_⟩
  · obtain ⟨n, hv, hreads⟩ := (readByName_of_mem_parameters namedParameters hwidth).number rfl
      (Text.isSymbol_iff.mp (by decide))
    cases hv
    exact hreads
  · obtain ⟨b, hv, hreads⟩ := (readByName_of_mem_parameters namedParameters hframed).flag rfl
      (Text.isSymbol_iff.mp (by decide))
    cases hv
    exact hreads
  · exact (readByName_of_mem_parameters namedParameters hmode).handshake .noReady
      ⟨"no_ready", rfl, by decide⟩ (by decide) "In" "D"

/-- A parameter whose name begins with a digit is in the table, and no counting field reads it. -/
theorem not_read_of_digit_first :
    ∃ p ∈ ((start {}).run [.add (Showcase.natural "12abc" 8)]).parameters.values,
      Text.isDigits p.name = false ∧ p.kind = .natural ∧ p.value = .natural 8 ∧
      Resolved.natural? ((start {}).run [.add (Showcase.natural "12abc" 8)]).parameters.environment
        "In" "data width" (.text p.name) ≠ .ok (some ⟨8, some p.name⟩) :=
  ⟨_, .head _, by decide, rfl, rfl, by decide⟩

end Session

end Interconnect
