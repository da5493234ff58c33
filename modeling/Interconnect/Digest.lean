/-! # Content digests

The 128-bit XXH3 digest of a byte string, with seed zero. Short inputs are mixed
with the secret in one step; from 241 bytes on, eight lanes run over stripes of 64
bytes and are scrambled after each block.
-/

namespace Interconnect

/-- The two halves of a digest. -/
structure Digest where
  low : UInt64
  high : UInt64
  deriving DecidableEq, Repr, Inhabited

namespace Digest

/-- The fixed key material of the digest, as little-endian words. -/
def secretWords : List UInt64 :=
  [0xbe4ba423396cfeb8, 0x1cad21f72c81017c, 0xdb979083e96dd4de, 0x1f67b3b7a4a44072,
   0x78e5c0cc4ee679cb, 0x2172ffcc7dd05a82, 0x8e2443f7744608b8, 0x4c263a81e69035e0,
   0xcb00c391bb52283c, 0xa32e531b8b65d088, 0x4ef90da297486471, 0xd8acdea946ef1938,
   0x3f349ce33f76faa8, 0x1d4f0bc7c7bbdcf9, 0x3159b4cd4be0518a, 0x647378d9c97e9fc8,
   0xc3ebd33483acc5ea, 0xeb6313faffa081c5, 0x49daf0b751dd0d17, 0x9e68d429265516d3,
   0xfca1477d58be162b, 0xce31d07ad1b8f88f, 0x280416958f3acb45, 0x7e404bbbcafbd7af]

/-- The bytes of a word, lowest first. -/
def wordBytes (w : UInt64) : List UInt8 :=
  (List.range 8).map fun i => (w >>> (8 * UInt64.ofNat i)).toUInt8

def secret : ByteArray := ⟨(secretWords.flatMap wordBytes).toArray⟩

def byteAt (b : ByteArray) (i : Nat) : UInt64 :=
  if h : i < b.size then b[i].toUInt64 else 0

/-- The 32-bit little-endian word at offset `i`. -/
def word32 (b : ByteArray) (i : Nat) : UInt64 :=
  byteAt b i ||| byteAt b (i + 1) <<< 8 ||| byteAt b (i + 2) <<< 16 |||
    byteAt b (i + 3) <<< 24

/-- The 64-bit little-endian word at offset `i`. -/
def word64 (b : ByteArray) (i : Nat) : UInt64 :=
  word32 b i ||| word32 b (i + 4) <<< 32

def prime32₁ : UInt64 := 0x9E3779B1
def prime32₂ : UInt64 := 0x85EBCA77
def prime32₃ : UInt64 := 0xC2B2AE3D
def prime64₁ : UInt64 := 0x9E3779B185EBCA87
def prime64₂ : UInt64 := 0xC2B2AE3D27D4EB4F
def prime64₃ : UInt64 := 0x165667B19E3779F9
def prime64₄ : UInt64 := 0x85EBCA77C2B2AE63
def prime64₅ : UInt64 := 0x27D4EB2F165667C5
def primeMix₁ : UInt64 := 0x165667919E3779F9
def primeMix₂ : UInt64 := 0x9FB21C651E98DF25

def low32 (w : UInt64) : UInt64 := w &&& 0xFFFFFFFF

/-- The 128-bit product, low half first. -/
def wideProduct (a b : UInt64) : UInt64 × UInt64 :=
  let p := a.toNat * b.toNat
  (UInt64.ofNat p, UInt64.ofNat (p / UInt64.size))

/-- The two halves of the product, combined. -/
def foldProduct (a b : UInt64) : UInt64 :=
  let (low, high) := wideProduct a b
  low ^^^ high

def xorShift (w s : UInt64) : UInt64 := w ^^^ (w >>> s)

def avalanche (w : UInt64) : UInt64 :=
  xorShift (xorShift w 37 * primeMix₁) 32

/-- The finish used for at most three bytes. -/
def avalancheShort (w : UInt64) : UInt64 :=
  xorShift (xorShift (xorShift w 33 * prime64₂) 29 * prime64₃) 32

def swapBytes32 (w : UInt64) : UInt64 :=
  (w &&& 0xFF) <<< 24 ||| (w >>> 8 &&& 0xFF) <<< 16 ||| (w >>> 16 &&& 0xFF) <<< 8 |||
    (w >>> 24 &&& 0xFF)

def swapBytes64 (w : UInt64) : UInt64 :=
  swapBytes32 (low32 w) <<< 32 ||| swapBytes32 (w >>> 32)

def rotateLeft32 (w r : UInt64) : UInt64 :=
  low32 (w <<< r) ||| w >>> (32 - r)

/-- A pair of secret words, combined. -/
def key (i j : Nat) : UInt64 := word64 secret i ^^^ word64 secret j

def ofEmpty : Digest :=
  ⟨avalancheShort (key 64 72), avalancheShort (key 80 88)⟩

/-- One to three bytes. -/
def ofTiny (b : ByteArray) : Digest :=
  let n := b.size
  let low := byteAt b 0 <<< 16 ||| byteAt b (n / 2) <<< 24 ||| byteAt b (n - 1) |||
    UInt64.ofNat n <<< 8
  let high := rotateLeft32 (swapBytes32 low) 13
  ⟨avalancheShort (low ^^^ (word32 secret 0 ^^^ word32 secret 4)),
   avalancheShort (high ^^^ (word32 secret 8 ^^^ word32 secret 12))⟩

/-- Four to eight bytes. -/
def ofSmall (b : ByteArray) : Digest :=
  let n := b.size
  let w := word32 b 0 + word32 b (n - 4) <<< 32
  let (low, high) := wideProduct (w ^^^ key 16 24) (prime64₁ + UInt64.ofNat n <<< 2)
  let high := high + low <<< 1
  let low := low ^^^ high >>> 3
  ⟨xorShift (xorShift low 35 * primeMix₂) 28, avalanche high⟩

/-- Nine to sixteen bytes. -/
def ofMedium (b : ByteArray) : Digest :=
  let n := b.size
  let first := word64 b 0
  let last := word64 b (n - 8)
  let (low, high) := wideProduct (first ^^^ last ^^^ key 32 40) prime64₁
  let low := low + (UInt64.ofNat n - 1) <<< 54
  let last := last ^^^ key 48 56
  let high := high + last + low32 last * (prime32₂ - 1)
  let (low, carry) := wideProduct (low ^^^ swapBytes64 high) prime64₂
  ⟨avalanche low, avalanche (carry + high * prime64₂)⟩

/-- Sixteen bytes at `i`, mixed with the secret at `s`. -/
def mix16 (b : ByteArray) (i s : Nat) : UInt64 :=
  foldProduct (word64 b i ^^^ word64 secret s) (word64 b (i + 8) ^^^ word64 secret (s + 8))

/-- Both halves advance by sixteen bytes at `i` and at `j`. -/
def mix32 (acc : Digest) (b : ByteArray) (i j s : Nat) : Digest :=
  ⟨(acc.low + mix16 b i s) ^^^ (word64 b j + word64 b (j + 8)),
   (acc.high + mix16 b j (s + 16)) ^^^ (word64 b i + word64 b (i + 8))⟩

/-- The finish of the inputs from 17 to 240 bytes. -/
def finish (acc : Digest) (n : Nat) : Digest :=
  ⟨avalanche (acc.low + acc.high),
   0 - avalanche (acc.low * prime64₁ + acc.high * prime64₄ + UInt64.ofNat n * prime64₂)⟩

def start (n : Nat) : Digest := ⟨UInt64.ofNat n * prime64₁, 0⟩

/-- Seventeen to 128 bytes: pairs from both ends, the innermost first. -/
def ofPaired (b : ByteArray) : Digest :=
  let n := b.size
  let pairs := (n - 1) / 32 + 1
  let acc := (List.range pairs).reverse.foldl
    (fun acc i => mix32 acc b (16 * i) (n - 16 * (i + 1)) (32 * i)) (start n)
  finish acc n

/-- 129 to 240 bytes: rounds of 32 bytes, then the last 32 in reverse. -/
def ofRounds (b : ByteArray) : Digest :=
  let n := b.size
  let acc := (List.range 4).foldl
    (fun acc i => mix32 acc b (32 * i) (32 * i + 16) (32 * i)) (start n)
  let acc : Digest := ⟨avalanche acc.low, avalanche acc.high⟩
  let acc := (List.range (n / 32 - 4)).foldl
    (fun acc i => mix32 acc b (32 * (i + 4)) (32 * (i + 4) + 16) (3 + 32 * i)) acc
  finish (mix32 acc b (n - 16) (n - 32) 103) n

/-- The eight lanes of a long digest, before any stripe. -/
def lanes : List UInt64 :=
  [prime32₃, prime64₁, prime64₂, prime64₃, prime64₄, prime32₂, prime64₅, prime32₁]

/-- One stripe of 64 bytes at `i`: each lane takes the product of the halves of its
keyed word, and the plain word of its neighbour. -/
def stripe (b : ByteArray) (i s : Nat) (acc : List UInt64) : List UInt64 :=
  acc.mapIdx fun k lane =>
    let keyed := word64 b (i + 8 * k) ^^^ word64 secret (s + 8 * k)
    let neighbour := if k % 2 = 0 then k + 1 else k - 1
    lane + word64 b (i + 8 * neighbour) + low32 keyed * (keyed >>> 32)

/-- The end of a block. -/
def scramble (acc : List UInt64) : List UInt64 :=
  acc.mapIdx fun k lane =>
    (xorShift lane 47 ^^^ word64 secret (128 + 8 * k)) * prime32₁

/-- `count` stripes from offset `i` on. -/
def stripes (b : ByteArray) (i count : Nat) (acc : List UInt64) : List UInt64 :=
  (List.range count).foldl (fun acc k => stripe b (i + 64 * k) (8 * k) acc) acc

/-- Adjacent lanes multiplied together with the secret from `s` on. -/
def merge (s : Nat) (w : UInt64) : List UInt64 → UInt64
  | x :: y :: rest =>
    merge (s + 16) (w + foldProduct (x ^^^ word64 secret s) (y ^^^ word64 secret (s + 8))) rest
  | _ => avalanche w

/-- 241 bytes and more: blocks of sixteen stripes, the stripes left over, and the
last 64 bytes. -/
def ofLong (b : ByteArray) : Digest :=
  let n := b.size
  let blocks := (n - 1) / 1024
  let acc := (List.range blocks).foldl
    (fun acc k => scramble (stripes b (1024 * k) 16 acc)) lanes
  let acc := stripes b (1024 * blocks) ((n - 1 - 1024 * blocks) / 64) acc
  let acc := stripe b (n - 64) 121 acc
  ⟨merge 11 (UInt64.ofNat n * prime64₁) acc,
   merge 117 (~~~ (UInt64.ofNat n * prime64₂)) acc⟩

/-- The digest of a byte string. -/
def ofBytes (b : ByteArray) : Digest :=
  if b.size = 0 then ofEmpty
  else if b.size ≤ 3 then ofTiny b
  else if b.size ≤ 8 then ofSmall b
  else if b.size ≤ 16 then ofMedium b
  else if b.size ≤ 128 then ofPaired b
  else if b.size ≤ 240 then ofRounds b
  else ofLong b

/-- The sixteen bytes, lowest first. -/
def bytes (d : Digest) : List UInt8 := wordBytes d.low ++ wordBytes d.high

/-- The digest in lower-case hexadecimal. -/
def hex (d : Digest) : String :=
  String.ofList (d.bytes.flatMap fun b =>
    [Nat.digitChar (b.toNat / 16), Nat.digitChar (b.toNat % 16)])

instance : ToString Digest := ⟨hex⟩

end Digest

end Interconnect
