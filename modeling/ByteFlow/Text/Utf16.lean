/-!
# UTF-16 code units

A string travels as a sequence of 16-bit code units.  A character below `0x10000`
is one unit; any other is a pair of surrogates, the high one first.  Not every
sequence of units is a string: a surrogate that is not part of a pair stands for
no character.

## Main definitions

* `Utf16.units c` — the one or two code units of a character.
* `Utf16.encode s` — the code units of a string.
* `Utf16.decode us` — the string with the given code units, if there is one.
-/

namespace ByteFlow.Text.Utf16

/-- The code units of one character: itself below `0x10000`, otherwise the high
and the low ten bits of its distance from there, each on its surrogate base. -/
def units (c : Char) : List UInt16 :=
  if c.toNat < 0x10000 then [c.toNat.toUInt16]
  else
    [(0xD800 + (c.toNat - 0x10000) / 0x400).toUInt16,
      (0xDC00 + (c.toNat - 0x10000) % 0x400).toUInt16]

/-- The code units of a string, character after character. -/
def encode (s : String) : List UInt16 := s.toList.flatMap units

/-- A unit that opens a surrogate pair. -/
def isHigh (u : UInt16) : Bool := 0xD800 ≤ u && u < 0xDC00

/-- A unit that ends a surrogate pair. -/
def isLow (u : UInt16) : Bool := 0xDC00 ≤ u && u < 0xE000

/-- The character of a surrogate pair. -/
def ofPair (high low : UInt16) : Char :=
  Char.ofNat (0x10000 + (high.toNat - 0xD800) * 0x400 + (low.toNat - 0xDC00))

/-- Decoding with the characters found so far, the last one first. -/
def decodeFrom (found : List Char) : List UInt16 → Option (List Char)
  | [] => some found.reverse
  | [u] =>
    if isHigh u || isLow u then none else some (Char.ofNat u.toNat :: found).reverse
  | u :: v :: rest =>
    if isHigh u then
      if isLow v then decodeFrom (ofPair u v :: found) rest else none
    else if isLow u then none
    else decodeFrom (Char.ofNat u.toNat :: found) (v :: rest)

/-- The string whose code units these are; there is none when a surrogate stands
outside a pair. -/
def decode (us : List UInt16) : Option String := (decodeFrom [] us).map String.ofList

end ByteFlow.Text.Utf16
