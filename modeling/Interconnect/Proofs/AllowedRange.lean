import Interconnect.Proofs.Fingerprint

/-! # Allowed ranges in encodings

The values of an allowed range are encoded without saying how they are written, and a list
without saying that it is one. Ranges that are written differently can therefore have the same
bytes: a flag those of a number, a text those of a list. Ranges that are written alike cannot.
-/

namespace Interconnect

open Encoding

/-- Two values that are written in the same way. -/
inductive Scalar.Alike : Scalar → Scalar → Prop where
  | flag (b c : Bool) : Alike (.flag b) (.flag c)
  | number (m n : UInt64) : Alike (.number m) (.number n)
  | text (s t : String) : Alike (.text s) (.text t)

theorem Scalar.Alike.tells_encode {a b : Scalar} (h : a.Alike b) :
    Tells a.encode b.encode (a = b) := by
  cases h with
  | flag b c => exact (unambiguous_flag b c).imp (congrArg Scalar.flag)
  | number m n => exact (unambiguous_number m n).imp (congrArg Scalar.number)
  | text s t => exact (unambiguous_text s t).imp (congrArg Scalar.text)

theorem Scalar.Alike.refl (a : Scalar) : a.Alike a := by
  cases a with
  | flag b => exact .flag b b
  | number n => exact .number n n
  | text s => exact .text s s

theorem Scalar.encode_ne_nil (a : Scalar) : a.encode ≠ [] := by
  cases a with
  | flag b => exact List.cons_ne_nil _ _
  | number n => exact number_ne_nil n
  | text s => exact text_ne_nil s

namespace Parameter

/-- Two texts, or two lists whose values at each place are written in the same way. The lists
may have different lengths. -/
inductive Allowed.Alike : Allowed → Allowed → Prop where
  | list {as bs : List Scalar} :
      (∀ (n : Nat) a b, as[n]? = some a → bs[n]? = some b → a.Alike b) →
      Alike (.list as) (.list bs)
  | text (s t : String) : Alike (.text s) (.text t)

theorem Allowed.Alike.refl (a : Allowed) : a.Alike a := by
  cases a with
  | list items =>
    refine .list fun n a b ha hb => ?_
    obtain rfl := Option.some.inj (ha.symm.trans hb)
    exact .refl a
  | text s => exact .text s s

theorem Allowed.Alike.tells_encode {a b : Allowed} (h : a.Alike b) :
    Tells a.encode b.encode (a = b) := by
  cases h with
  | list hitems =>
    refine (tells_list Scalar.encode_ne_nil fun n a b ha hb => ?_).imp (congrArg Allowed.list)
    exact (hitems n a b ha hb).tells_encode
  | text s t => exact (unambiguous_text s t).imp (congrArg Allowed.text)

theorem tells_encode_of_alike {p q : Parameter}
    (h : ∀ a b, p.allowed = some a → q.allowed = some b → a.Alike b) :
    Tells p.encode q.encode (p = q) :=
  tells_encode_of_allowed (tells_option fun a b ha hb => (h a b ha hb).tells_encode)

/-- Ranges that are written alike have equal bytes only when they are equal, and so do the
parameters that have them; a range is never taken for a missing one. A length is written in
64 bits, and so the bytes must be as many as fit. -/
theorem Allowed.eq_of_alike {a b : Allowed} (h : a.Alike b) :
    (a.encode.length < UInt64.size → a.encode = b.encode → a = b) ∧
      (∀ p q : Parameter, p.allowed = some a → q.allowed = some b →
        p.encode.length < UInt64.size → p.encode = q.encode → p = q) ∧
      ∀ p q : Parameter, p.allowed = some a → q.allowed = none →
        p.encode.length < UInt64.size → p.encode ≠ q.encode := by
  refine ⟨h.tells_encode.of_eq, fun p q hp hq => ?_, fun p q hp hq hlt he => ?_⟩
  · apply Tells.of_eq
    apply tells_encode_of_alike
    intro a' b' ha' hb'
    obtain rfl := Option.some.inj (hp.symm.trans ha')
    obtain rfl := Option.some.inj (hq.symm.trans hb')
    exact h
  · have htells : Tells p.encode q.encode (p = q) :=
      tells_encode_of_alike fun _ _ _ hb' => by rw [hq] at hb'; cases hb'
    rw [htells.of_eq hlt he, hq] at hp
    cases hp

/-- A natural number of the given value and range. -/
def ranged (value : Scalar) (items : List Scalar) : Declaration :=
  { name := "P", kind := "Natural", value := some value, allowed := some (.list items) }

theorem Allowed.eq_of_alike_ranged :
    (Allowed.list [.number 1]).encode ≠ (Allowed.list [.number 1, .flag true]).encode ∧
    ∃ p q, ofDeclaration (ranged (.number 8) [.flag true, .number 8]) = .ok p ∧
      ofDeclaration (ranged (.text " 8") [.flag true, .number 8]) = .ok q ∧ p = q := by
  constructor
  · intro he
    have halike : (Allowed.list [.number 1]).Alike (.list [.number 1, .flag true]) := by
      refine .list fun n a b ha hb => ?_
      cases n with
      | zero =>
        obtain rfl := Option.some.inj ha
        obtain rfl := Option.some.inj hb
        exact .number 1 1
      | succ n => cases ha
    cases (eq_of_alike halike).1 (by decide +kernel) he
  · exact ⟨_, _, rfl, rfl, (eq_of_alike (.refl (.list [.flag true, .number 8]))).2.1 _ _ rfl rfl
      (by decide +kernel) (by decide +kernel)⟩

/-- Ranges with the same bytes: a flag and a number, a text and a list, and a text and a number
in either order. Two declared parameters can so have the same bytes and differ in nothing but
their ranges. -/
theorem Allowed.exists_encode_eq :
    ((Allowed.list [.flag true]).encode = (Allowed.list [.number 1]).encode ∧
      (Allowed.text "").encode = (Allowed.list []).encode ∧
      (Allowed.text "ab").encode = (Allowed.list [.number 97, .number 98]).encode ∧
      (Allowed.list [.text "\u0001", .number 97]).encode =
        (Allowed.list [.number 1, .text "a"]).encode) ∧
    ∃ p q, ofDeclaration (ranged (.number 0) [.flag true]) = .ok p ∧
      ofDeclaration (ranged (.number 0) [.number 1]) = .ok q ∧
      p ≠ q ∧ { p with allowed := q.allowed } = q ∧ p.encode = q.encode := by
  refine ⟨⟨by decide +kernel, by decide +kernel, by decide +kernel, by decide +kernel⟩,
    _, _, rfl, rfl, ?_⟩
  decide +kernel

end Parameter

end Interconnect
