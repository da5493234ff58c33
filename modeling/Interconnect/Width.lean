/-! # Bit widths

The number of bits that a value needs, and the number that an index over a count
of values needs. Both stay within 64 on 64-bit words.
-/

namespace Interconnect.Width

/-- The length of `n` in binary; zero has none. -/
def bitLength (n : Nat) : Nat := if n = 0 then 0 else n.log2 + 1

/-- The bits needed to write `value` as an unsigned number. -/
def ofValue (value : UInt64) : UInt32 := UInt32.ofNat (bitLength value.toNat)

/-- The bits needed to index `count` distinct values: none for up to one. -/
def ofCount (count : UInt64) : UInt32 := UInt32.ofNat (bitLength (count.toNat - 1))

end Interconnect.Width
