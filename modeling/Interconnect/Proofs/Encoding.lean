import Interconnect.Encoding
import Mathlib.Algebra.Group.Nat.Defs

/-! # Telling encodings apart

Encodings follow each other without marks, but each shows where it ends: a number by its
first byte, a text or a list by its length, an option by its presence byte and a variant by
its position. Equal byte strings that begin with two encodings therefore encode the same
value, and go on alike after it. A length is written in 64 bits, so this is said of byte
strings whose length fits in 64 bits.
-/

namespace Interconnect.Encoding

variable {α : Type} {x y x' y' : Bytes} {m n : Nat} {P Q : Prop}

/-- Equal byte strings that begin with the two encodings show a fact, and go on alike. -/
def Tells (x y : Bytes) (P : Prop) : Prop :=
  ∀ r s, (x ++ r).length < UInt64.size → x ++ r = y ++ s → P ∧ r = s

/-- No encoding can be mistaken for that of another value, whatever follows it. -/
def Unambiguous (encode : α → Bytes) : Prop := ∀ a b, Tells (encode a) (encode b) (a = b)

namespace Tells

theorem same (x : Bytes) : Tells x x True := fun _ _ _ he => ⟨trivial, List.append_cancel_left he⟩

theorem imp (h : Tells x y P) (hPQ : P → Q) : Tells x y Q := fun r s hlt he =>
  (h r s hlt he).imp_left hPQ

theorem andThen (h : Tells x y P) (h' : P → Tells x' y' Q) :
    Tells (x ++ x') (y ++ y') (P ∧ Q) := by
  intro r s hlt he
  rw [List.append_assoc] at hlt
  rw [List.append_assoc, List.append_assoc] at he
  obtain ⟨hp, he⟩ := h _ _ hlt he
  have hlt' : (x' ++ r).length < UInt64.size := by
    rw [List.length_append] at hlt
    omega
  obtain ⟨hq, he⟩ := h' hp r s hlt' he
  exact ⟨⟨hp, hq⟩, he⟩

theorem append (h : Tells x y P) (h' : Tells x' y' Q) : Tells (x ++ x') (y ++ y') (P ∧ Q) :=
  h.andThen fun _ => h'

theorem of_eq (h : Tells x y P) (hlt : x.length < UInt64.size) (he : x = y) : P :=
  (h [] [] (by simpa using hlt) (by simpa using he)).1

end Tells

theorem tells_of_length_eq (h : x.length = y.length) : Tells x y (x = y) := fun _ _ _ he =>
  List.append_inj he h

/-- The number that the bytes stand for, the lowest first. -/
def fromLittleEndian : Bytes → Nat
  | [] => 0
  | b :: bs => b.toNat + 256 * fromLittleEndian bs

theorem fromLittleEndian_littleEndian (h : n < 256 ^ m) :
    fromLittleEndian (littleEndian n m) = n := by
  induction m generalizing n with
  | zero => simpa [littleEndian, fromLittleEndian, eq_comm] using h
  | succ m ih =>
    have hrest : n / 256 < 256 ^ m := Nat.div_lt_of_lt_mul (by rwa [Nat.pow_succ'] at h)
    have hbyte : (UInt8.ofNat (n % 256)).toNat = n % 256 := by simp
    rw [littleEndian, fromLittleEndian, ih hrest, hbyte, Nat.mod_add_div]

/-- The number that a byte string begins with, and what follows it. -/
def readNumber : Bytes → Nat × Bytes
  | [] => (0, [])
  | mark :: rest =>
    if mark.toNat < 251 then (mark.toNat, rest)
    else
      let size := if mark = 251 then 2 else if mark = 252 then 4 else 8
      (fromLittleEndian (rest.take size), rest.drop size)

theorem readNumber_number (n : UInt64) (rest : Bytes) :
    readNumber (number n ++ rest) = (n.toNat, rest) := by
  have hword {size : Nat} (h : n.toNat < 256 ^ size) :
      (fromLittleEndian ((littleEndian n.toNat size ++ rest).take size),
        (littleEndian n.toNat size ++ rest).drop size) = (n.toNat, rest) := by
    rw [List.take_left' (length_littleEndian ..), List.drop_left' (length_littleEndian ..),
      fromLittleEndian_littleEndian h]
  unfold number
  dsimp only
  split
  next h =>
    have hbyte : n.toNat % 256 = n.toNat := Nat.mod_eq_of_lt (by omega)
    simp [readNumber, hbyte, h]
  · split
    next h => exact hword h
    · split
      next h => exact hword h
      · exact hword n.toNat_lt

theorem unambiguous_number : Unambiguous number := by
  intro m n r s _ he
  have hread := congrArg readNumber he
  rw [readNumber_number, readNumber_number] at hread
  obtain ⟨hn, hr⟩ := Prod.mk.inj hread
  exact ⟨UInt64.toNat_inj.mp hn, hr⟩

theorem unambiguous_number32 : Unambiguous number32 := fun _ _ =>
  (unambiguous_number _ _).imp UInt32.toUInt64_inj.mp

theorem number_ne_nil (n : UInt64) : number n ≠ [] := by
  unfold number
  dsimp only
  repeat' split
  all_goals simp

theorem unambiguous_flag : Unambiguous flag := by
  intro a b
  have hbytes : Tells (flag a) (flag b) (flag a = flag b) := tells_of_length_eq rfl
  exact hbytes.imp (by cases a <;> cases b <;> decide)

theorem tells_count (hm : m < UInt64.size) (hn : n < UInt64.size) :
    Tells (count m) (count n) (m = n) :=
  (unambiguous_number _ _).imp fun h => by
    rw [← UInt64.toNat_ofNat_of_lt' hm, h, UInt64.toNat_ofNat_of_lt' hn]

theorem tells_variant (hm : m < UInt64.size) (hn : n < UInt64.size) (h : m = n → Tells x y P) :
    Tells (count m ++ x) (count n ++ y) P :=
  ((tells_count hm hn).andThen h).imp And.right

theorem tells_sized (hm : m ≤ x.length) (hn : n ≤ y.length) (h : m = n → Tells x y P) :
    Tells (count m ++ x) (count n ++ y) P := by
  intro r s hlt he
  have hlt' : (count n ++ y ++ s).length < UInt64.size := he ▸ hlt
  have hm : m < UInt64.size := by
    rw [List.length_append, List.length_append] at hlt
    omega
  have hn : n < UInt64.size := by
    rw [List.length_append, List.length_append] at hlt'
    omega
  exact tells_variant hm hn h r s hlt he

theorem unambiguous_index {index : α → Nat} (variants : List α)
    (hlength : variants.length < UInt64.size) (h : ∀ a, variants[index a]? = some a) :
    Unambiguous fun a => count (index a) := by
  have hlt (a : α) : index a < UInt64.size :=
    Nat.lt_trans (List.getElem?_eq_some_iff.mp (h a)).1 hlength
  intro a b
  refine (tells_count (hlt a) (hlt b)).imp fun hindex => Option.some.inj ?_
  rw [← h a, hindex, h b]

theorem unambiguous_text : Unambiguous text := by
  have hlength (s : String) : s.toByteArray.data.toList.length = s.utf8ByteSize := rfl
  intro a b
  refine tells_sized (Nat.le_of_eq rfl) (Nat.le_of_eq rfl) fun hsize => ?_
  refine (tells_of_length_eq (by rw [hlength, hlength, hsize])).imp fun he => ?_
  exact String.toByteArray_inj.mp (ByteArray.ext (Array.toList_inj.mp he))

theorem text_ne_nil (s : String) : text s ≠ [] :=
  List.append_ne_nil_of_left_ne_nil (number_ne_nil _) _

/-- An option is told by its presence byte, and what is there need be told apart only from what
is there in the other. -/
theorem tells_option {encode : α → Bytes} {a b : Option α}
    (h : ∀ x y, a = some x → b = some y → Tells (encode x) (encode y) (x = y)) :
    Tells (option encode a) (option encode b) (a = b) := by
  cases a with
  | none =>
    cases b with
    | none => exact (Tells.same [0]).imp fun _ => rfl
    | some y => exact fun _ _ _ he => by simp [option] at he
  | some x =>
    cases b with
    | none => exact fun _ _ _ he => by simp [option] at he
    | some y =>
      exact ((Tells.same [1]).append (h x y rfl rfl)).imp fun hxy => congrArg some hxy.2

theorem unambiguous_option {encode : α → Bytes} (h : Unambiguous encode) :
    Unambiguous (option encode) := fun _ _ => tells_option fun x y _ _ => h x y

theorem tells_flatMap {encode : α → Bytes} {as bs : List α} (hlength : as.length = bs.length)
    (h : ∀ (n : Nat) a b, as[n]? = some a → bs[n]? = some b →
      Tells (encode a) (encode b) (a = b)) :
    Tells (as.flatMap encode) (bs.flatMap encode) (as = bs) := by
  induction as generalizing bs with
  | nil =>
    obtain rfl := List.length_eq_zero_iff.mp hlength.symm
    exact (Tells.same []).imp fun _ => rfl
  | cons a as ih =>
    cases bs with
    | nil => cases hlength
    | cons b bs =>
      have hrest := ih (Nat.succ.inj hlength) fun n => h (n + 1)
      exact ((h 0 a b rfl rfl).append hrest).imp fun ⟨hab, hrest⟩ => by rw [hab, hrest]

theorem length_le_flatMap {encode : α → Bytes} (hne : ∀ a, encode a ≠ []) (as : List α) :
    as.length ≤ (as.flatMap encode).length := by
  induction as with
  | nil => exact Nat.le_refl 0
  | cons a as ih =>
    have hpos : 0 < (encode a).length := List.length_pos_iff.mpr (hne a)
    rw [List.length_cons, List.flatMap_cons, List.length_append]
    omega

/-- The items of two lists need be told apart only from those at the same place. -/
theorem tells_list {encode : α → Bytes} (hne : ∀ a, encode a ≠ []) {as bs : List α}
    (h : ∀ (n : Nat) a b, as[n]? = some a → bs[n]? = some b →
      Tells (encode a) (encode b) (a = b)) :
    Tells (list encode as) (list encode bs) (as = bs) :=
  tells_sized (length_le_flatMap hne as) (length_le_flatMap hne bs) fun hlength =>
    tells_flatMap hlength h

theorem unambiguous_list {encode : α → Bytes} (hne : ∀ a, encode a ≠ [])
    (h : Unambiguous encode) : Unambiguous (list encode) := fun _ _ =>
  tells_list hne fun _ a b _ _ => h a b

end Interconnect.Encoding
