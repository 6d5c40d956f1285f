/-!
# Big-endian numbers

Every number on the wire has its most significant byte first.  This file turns
numbers into bytes of a given width and bytes into numbers.

## Main definitions

* `BigEndian.encode width n` — the `width` bytes of `n`, taken modulo `256 ^ width`.
* `BigEndian.decode bs` — the number that the bytes denote.
-/

namespace ByteFlow.BigEndian

/-- The lowest `width` bytes of `n`, the most significant of them first. -/
def encode : (width n : Nat) → List UInt8
  | 0, _ => []
  | width + 1, n => (n >>> (8 * width)).toUInt8 :: encode width n

/-- The number written by the bytes, each new byte being the least significant so
far. -/
def decode (bs : List UInt8) : Nat := bs.foldl (fun n b => n * 256 + b.toNat) 0

end ByteFlow.BigEndian
