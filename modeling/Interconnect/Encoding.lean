import Interconnect.Digest

/-! # Byte encoding

Resolved models are written as bytes before they are digested: numbers as variable
length little-endian words, texts and lists after their length, options after a
presence byte, and a variant by its position. Fields follow each other without marks.
-/

namespace Interconnect.Encoding

abbrev Bytes := List UInt8

/-- The `count` lowest bytes of a number, lowest first. -/
def littleEndian (n : Nat) : Nat → Bytes
  | 0 => []
  | count + 1 => UInt8.ofNat (n % 256) :: littleEndian (n / 256) count

@[simp] theorem length_littleEndian (n count : Nat) : (littleEndian n count).length = count := by
  induction count generalizing n with
  | zero => rfl
  | succ count ih => simp [littleEndian, ih]

/-- One byte below 251; above that a mark and the two, four or eight bytes that the
number needs. -/
def number (n : UInt64) : Bytes :=
  let n := n.toNat
  if n < 251 then [UInt8.ofNat n]
  else if n < UInt16.size then 251 :: littleEndian n 2
  else if n < UInt32.size then 252 :: littleEndian n 4
  else 253 :: littleEndian n 8

def number32 (n : UInt32) : Bytes := number n.toUInt64

def flag (b : Bool) : Bytes := [if b then 1 else 0]

/-- A length or a position. -/
def count (n : Nat) : Bytes := number (UInt64.ofNat n)

def text (s : String) : Bytes := count s.utf8ByteSize ++ s.toByteArray.data.toList

def option {α : Type} (encode : α → Bytes) : Option α → Bytes
  | none => [0]
  | some a => 1 :: encode a

def list {α : Type} (encode : α → Bytes) (items : List α) : Bytes :=
  count items.length ++ items.flatMap encode

/-- The digest of an encoding. -/
def digest (bytes : Bytes) : Digest := .ofBytes ⟨bytes.toArray⟩

end Interconnect.Encoding
