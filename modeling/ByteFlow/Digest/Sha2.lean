import ByteFlow.BigEndian

/-!
# The SHA-2 hash functions

SHA-256 and SHA-512 are one construction over words of 32 and of 64 bits.  The
message is cut into blocks of sixteen words, and each block is mixed into eight
running words.  What differs is the word, the number of rounds, and the rotations.

Both take their constants from the same irrational numbers, as many bits as a word
has, so the shorter constants are the upper halves of the longer ones.

The hash is computed as the bytes come: the running state depends only on the
bytes so far and not on how they were grouped.

## Main definitions

* `Sha2.Variant` — word, rounds and rotations; `Sha2.sha256` and `Sha2.sha512`.
* `Sha2.Progress` — what is known of a message whose bytes are still coming.
* `Sha2.Progress.feed`, `Sha2.Progress.finish` — more bytes, and the digest.
* `Sha2.digest` — the digest of a message that is there as a whole.
-/

namespace ByteFlow.Digest

/-- A message is cut into pieces of the same size; this is the one with the given number.  The last
piece may be shorter. -/
def piece (size i : Nat) (message : List UInt8) : List UInt8 :=
  (message.drop (i * size)).take size

namespace Sha2

/-! ## Words -/

/-- What tells one function of the family from another. -/
structure Variant (W : Type) where
  /-- Bytes in a word. -/
  width : Nat
  ofNat : Nat → W
  toNat : W → Nat
  /-- The constant of each round. -/
  constants : List W
  /-- The eight words before the first block. -/
  start : List W
  /-- The mixing functions of the rounds. -/
  upper0 : W → W
  upper1 : W → W
  /-- The mixing functions of the message schedule. -/
  lower0 : W → W
  lower1 : W → W

/-- The first bits of the fractional parts of the cube roots of the first eighty
primes. -/
def cubeRoots : List UInt64 := [
  0x428a2f98d728ae22, 0x7137449123ef65cd, 0xb5c0fbcfec4d3b2f, 0xe9b5dba58189dbbc,
  0x3956c25bf348b538, 0x59f111f1b605d019, 0x923f82a4af194f9b, 0xab1c5ed5da6d8118,
  0xd807aa98a3030242, 0x12835b0145706fbe, 0x243185be4ee4b28c, 0x550c7dc3d5ffb4e2,
  0x72be5d74f27b896f, 0x80deb1fe3b1696b1, 0x9bdc06a725c71235, 0xc19bf174cf692694,
  0xe49b69c19ef14ad2, 0xefbe4786384f25e3, 0x0fc19dc68b8cd5b5, 0x240ca1cc77ac9c65,
  0x2de92c6f592b0275, 0x4a7484aa6ea6e483, 0x5cb0a9dcbd41fbd4, 0x76f988da831153b5,
  0x983e5152ee66dfab, 0xa831c66d2db43210, 0xb00327c898fb213f, 0xbf597fc7beef0ee4,
  0xc6e00bf33da88fc2, 0xd5a79147930aa725, 0x06ca6351e003826f, 0x142929670a0e6e70,
  0x27b70a8546d22ffc, 0x2e1b21385c26c926, 0x4d2c6dfc5ac42aed, 0x53380d139d95b3df,
  0x650a73548baf63de, 0x766a0abb3c77b2a8, 0x81c2c92e47edaee6, 0x92722c851482353b,
  0xa2bfe8a14cf10364, 0xa81a664bbc423001, 0xc24b8b70d0f89791, 0xc76c51a30654be30,
  0xd192e819d6ef5218, 0xd69906245565a910, 0xf40e35855771202a, 0x106aa07032bbd1b8,
  0x19a4c116b8d2d0c8, 0x1e376c085141ab53, 0x2748774cdf8eeb99, 0x34b0bcb5e19b48a8,
  0x391c0cb3c5c95a63, 0x4ed8aa4ae3418acb, 0x5b9cca4f7763e373, 0x682e6ff3d6b2b8a3,
  0x748f82ee5defb2fc, 0x78a5636f43172f60, 0x84c87814a1f0ab72, 0x8cc702081a6439ec,
  0x90befffa23631e28, 0xa4506cebde82bde9, 0xbef9a3f7b2c67915, 0xc67178f2e372532b,
  0xca273eceea26619c, 0xd186b8c721c0c207, 0xeada7dd6cde0eb1e, 0xf57d4f7fee6ed178,
  0x06f067aa72176fba, 0x0a637dc5a2c898a6, 0x113f9804bef90dae, 0x1b710b35131c471b,
  0x28db77f523047d84, 0x32caab7b40c72493, 0x3c9ebe0a15c9bebc, 0x431d67c49c100d4c,
  0x4cc5d4becb3e42b6, 0x597f299cfc657e2a, 0x5fcb6fab3ad6faec, 0x6c44198c4a475817
]

/-- The first bits of the fractional parts of the square roots of the first eight
primes. -/
def squareRoots : List UInt64 := [
  0x6a09e667f3bcc908, 0xbb67ae8584caa73b, 0x3c6ef372fe94f82b, 0xa54ff53a5f1d36f1,
  0x510e527fade682d1, 0x9b05688c2b3e6c1f, 0x1f83d9abfb41bd6b, 0x5be0cd19137e2179
]

/-- The upper half of a 64-bit word. -/
def upperHalf (w : UInt64) : UInt32 := (w >>> 32).toUInt32

/-- Rotation of a 32-bit word to the right; the amount is less than its width. -/
def rotate32 (w : UInt32) (n : UInt32) : UInt32 := (w >>> n) ||| (w <<< (32 - n))

/-- Rotation of a 64-bit word to the right; the amount is less than its width. -/
def rotate64 (w : UInt64) (n : UInt64) : UInt64 := (w >>> n) ||| (w <<< (64 - n))

/-- SHA-256. -/
def sha256 : Variant UInt32 where
  width := 4
  ofNat := Nat.toUInt32
  toNat := UInt32.toNat
  constants := (cubeRoots.take 64).map upperHalf
  start := squareRoots.map upperHalf
  upper0 w := rotate32 w 2 ^^^ rotate32 w 13 ^^^ rotate32 w 22
  upper1 w := rotate32 w 6 ^^^ rotate32 w 11 ^^^ rotate32 w 25
  lower0 w := rotate32 w 7 ^^^ rotate32 w 18 ^^^ (w >>> 3)
  lower1 w := rotate32 w 17 ^^^ rotate32 w 19 ^^^ (w >>> 10)

/-- SHA-512. -/
def sha512 : Variant UInt64 where
  width := 8
  ofNat := Nat.toUInt64
  toNat := UInt64.toNat
  constants := cubeRoots
  start := squareRoots
  upper0 w := rotate64 w 28 ^^^ rotate64 w 34 ^^^ rotate64 w 39
  upper1 w := rotate64 w 14 ^^^ rotate64 w 18 ^^^ rotate64 w 41
  lower0 w := rotate64 w 1 ^^^ rotate64 w 8 ^^^ (w >>> 7)
  lower1 w := rotate64 w 19 ^^^ rotate64 w 61 ^^^ (w >>> 6)

/-! ## One block -/

section

variable {W : Type} [Add W] [AndOp W] [XorOp W] [Complement W]

namespace Variant

/-- Bytes in a block: sixteen words. -/
def blockSize (v : Variant W) : Nat := 16 * v.width

/-- The words of a block, big-endian. -/
def words (v : Variant W) : (n : Nat) → List UInt8 → List W
  | 0, _ => []
  | n + 1, bytes =>
    v.ofNat (BigEndian.decode (bytes.take v.width)) :: words v n (bytes.drop v.width)

/-- The message schedule, the latest word first: `n` words more, each made of four
earlier ones. -/
def schedule (v : Variant W) : (n : Nat) → (latest : List W) → List W
  | 0, latest => latest
  | n + 1, latest =>
    let back (i : Nat) : W := latest.getD (i - 1) (v.ofNat 0)
    let word := v.lower1 (back 2) + back 7 + v.lower0 (back 15) + back 16
    schedule v n (word :: latest)

/-- One round on the eight running words. -/
def round (v : Variant W) (running : List W) (constant word : W) : List W :=
  match running with
  | [a, b, c, d, e, f, g, h] =>
    let choice := (e &&& f) ^^^ (~~~e &&& g)
    let majority := (a &&& b) ^^^ (a &&& c) ^^^ (b &&& c)
    let t := h + v.upper1 e + choice + constant + word
    [t + (v.upper0 a + majority), a, b, c, d + t, e, f, g]
  | other => other

/-- Mix a block into the eight running words. -/
def compress (v : Variant W) (running : List W) (block : List UInt8) : List W :=
  let words := (v.schedule (v.constants.length - 16) (v.words 16 block).reverse).reverse
  let mixed := (v.constants.zip words).foldl (fun state (k, w) => v.round state k w) running
  running.zipWith (· + ·) mixed

end Variant

/-! ## A whole message -/

/-- What is put behind the message: a one bit, zeros up to the end of a block less
two words, and the message's length in bits in these two words. -/
def padding (v : Variant W) (count : Nat) : List UInt8 :=
  let zeros := (2 * v.blockSize - 2 * v.width - 1 - count % v.blockSize) % v.blockSize
  0x80 :: List.replicate zeros 0 ++ BigEndian.encode (2 * v.width) (8 * count)

/-- The digest as it is written out. -/
def write (v : Variant W) (running : List W) : List UInt8 :=
  running.flatMap fun w => BigEndian.encode v.width (v.toNat w)

/-- The words after the full blocks of a message. -/
def mixed (v : Variant W) (message : List UInt8) : List W :=
  (List.range (message.length / v.blockSize)).foldl
    (fun running i => v.compress running (piece v.blockSize i message)) v.start

/-- The digest of a message. -/
def digest (v : Variant W) (message : List UInt8) : List UInt8 :=
  write v (mixed v (message ++ padding v message.length))

/-! ## Bytes as they come -/

/-- What is known of a message whose bytes are still coming. -/
structure Progress (W : Type) where
  /-- The eight running words. -/
  running : List W
  /-- The bytes of the block that is not full yet, the latest one first. -/
  pending : List UInt8
  /-- How many bytes there were. -/
  count : Nat

namespace Progress

/-- Before the first byte. -/
def start (v : Variant W) : Progress W := ⟨v.start, [], 0⟩

/-- One byte more. -/
def step (v : Variant W) (p : Progress W) (b : UInt8) : Progress W :=
  let pending := b :: p.pending
  if pending.length = v.blockSize then
    ⟨v.compress p.running pending.reverse, [], p.count + 1⟩
  else
    ⟨p.running, pending, p.count + 1⟩

/-- More bytes. -/
def feed (v : Variant W) (p : Progress W) (bytes : List UInt8) : Progress W :=
  bytes.foldl (step v) p

/-- The digest of all bytes so far. -/
def finish (v : Variant W) (p : Progress W) : List UInt8 :=
  write v (p.feed v (padding v p.count)).running

end Progress

end

end Sha2

end ByteFlow.Digest
