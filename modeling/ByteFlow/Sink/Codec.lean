import ByteFlow.Sink.Basic
import ByteFlow.Text.Utf16

/-!
# Writing typed values

The counterpart of reading them: big-endian numbers, one byte of zeros or of ones
for a truth value, bit patterns for floating-point numbers, and a signed
four-byte length in front of a sequence of code units.

## Main definitions

* `Sink.writeI8` … `Sink.writeF64` — single values.
* `Sink.writeUtf16`, `Sink.writeString` — sequences with a length in front.
-/

namespace ByteFlow.Sink

open ByteFlow.Action

/-- The byte for a truth value. -/
def boolByte (v : Bool) : UInt8 := if v then 0xFF else 0x00

variable {σ : Type} [Sink σ]

/-- The lowest `width` bytes of a number. -/
def writeNat (width n : Nat) : Action σ Unit :=
  Bytewise.writeList writeU8 (BigEndian.encode width n)

def writeI8 (v : Int8) : Action σ Unit := writeU8 v.toUInt8

/-- False is all zeros, true is all ones. -/
def writeBool (v : Bool) : Action σ Unit := writeU8 (boolByte v)

def writeU16 (v : UInt16) : Action σ Unit := writeNat 2 v.toNat

def writeI16 (v : Int16) : Action σ Unit := writeU16 v.toUInt16

/-- One UTF-16 code unit; the halves of a surrogate pair are two of them. -/
def writeUnit (v : UInt16) : Action σ Unit := writeU16 v

def writeU32 (v : UInt32) : Action σ Unit := writeNat 4 v.toNat

def writeI32 (v : Int32) : Action σ Unit := writeU32 v.toUInt32

def writeU64 (v : UInt64) : Action σ Unit := writeNat 8 v.toNat

def writeI64 (v : Int64) : Action σ Unit := writeU64 v.toUInt64

/-- The bit pattern of a single-precision number. -/
def writeF32 (bits : UInt32) : Action σ Unit := writeU32 bits

/-- The bit pattern of a double-precision number. -/
def writeF64 (bits : UInt64) : Action σ Unit := writeU64 bits

/-! ## Sequences -/

/-- The largest number of code units that a length can count. -/
def maxUnits : Nat := 0x7FFFFFFF

/-- A sequence of code units with its length in front. -/
def writeUtf16 (units : Array UInt16) : Action σ Unit :=
  if maxUnits < units.size then
    fail (.misuse (.sequenceTooLong units.size))
  else do
    writeNat 4 units.size
    writeUnits units

/-- A string, as the sequence of its code units. -/
def writeString (text : String) : Action σ Unit :=
  writeUtf16 (Text.Utf16.encode text).toArray

end ByteFlow.Sink
