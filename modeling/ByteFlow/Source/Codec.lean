import ByteFlow.Source.Basic
import ByteFlow.Text.Utf16

/-!
# Reading typed values

Values on the wire are big-endian.  A truth value is one byte, and any byte but
zero is true.  Floating-point numbers are their bit patterns.  A sequence of code
units has its length in front, as a signed four-byte number.

Every operation here goes through `Source.readU8` and `Source.readUnits` alone, so
it works for every source.

## Main definitions

* `Source.readI8` … `Source.readF64` — single values.
* `Source.readUtf16`, `Source.readString` — sequences with a length in front.
-/

namespace ByteFlow.Source

open ByteFlow.Action

variable {σ : Type} [Source σ]

/-- The number in the next `width` bytes. -/
def readNat (width : Nat) : Action σ Nat := do
  let bytes ← Bytewise.take readU8 width
  pure (BigEndian.decode bytes)

def readI8 : Action σ Int8 := do
  let b ← readU8
  pure b.toInt8

/-- Any byte but zero is true. -/
def readBool : Action σ Bool := do
  let b ← readU8
  pure (b != 0)

def readU16 : Action σ UInt16 := do
  pure (← readNat 2).toUInt16

def readI16 : Action σ Int16 := do
  pure (← readU16).toInt16

/-- One UTF-16 code unit; the halves of a surrogate pair are two of them. -/
def readUnit : Action σ UInt16 := readU16

def readU32 : Action σ UInt32 := do
  pure (← readNat 4).toUInt32

def readI32 : Action σ Int32 := do
  pure (← readU32).toInt32

def readU64 : Action σ UInt64 := do
  pure (← readNat 8).toUInt64

def readI64 : Action σ Int64 := do
  pure (← readU64).toInt64

/-- The bit pattern of a single-precision number. -/
def readF32 : Action σ UInt32 := readU32

/-- The bit pattern of a double-precision number. -/
def readF64 : Action σ UInt64 := readU64

/-! ## Sequences -/

/-- How many code units of a sequence are read at a time.  The length in front of
a sequence is not trusted: memory is taken only for units that have arrived. -/
def unitStep : Nat := 4096

/-- Read code units, a step at a time, until there are `total` of them in hand. -/
def readUnitsInSteps (total : Nat) : Action (σ × Array UInt16) Unit :=
  repeatUntil (total / unitStep + 1) (do
    let inHand ← gets fun (_, units) => units.size
    if inHand < total then
      readUnits (min (total - inHand) unitStep)
      pure none
    else
      pure (some ())) (pure ())

/-- A sequence of code units with its length in front. -/
def readUtf16 : Action σ (Array UInt16) := do
  let length ← readI32
  if length < 0 then
    fail (.corrupt (.negativeLength length.toInt))
  else
    let (_, units) ← alongside #[] (readUnitsInSteps length.toInt.toNat)
    pure units

/-- A string: a sequence of code units in which every surrogate is part of a
pair. -/
def readString : Action σ String := do
  let units ← readUtf16
  match Text.Utf16.decode units.toList with
  | some text => pure text
  | none => fail (.corrupt .loneSurrogate)

end ByteFlow.Source
