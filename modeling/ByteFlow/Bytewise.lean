import ByteFlow.BigEndian
import ByteFlow.Region.Basic

/-!
# Bulk operations from single bytes

A stream has to say how one byte is read or written; everything else can be
derived from that.  This file holds the derived operations.  A stream may bring
faster ones of its own, and these are then expected to agree with the ones here.

## Main definitions

* `Bytewise.take`, `Bytewise.readUnit` — a few bytes, and one code unit.
* `Bytewise.readBytes`, `Bytewise.readUnits`, `Bytewise.fill` — bulk reading.
* `Bytewise.writeUnit`, `Bytewise.writeBytes`, `Bytewise.writeUnits`,
  `Bytewise.drain` — bulk writing.
-/

namespace ByteFlow.Bytewise

open ByteFlow.Action

variable {σ : Type}

/-! ## Reading -/

/-- Exactly `n` bytes, one after the other. -/
def take (next : Action σ UInt8) : Nat → Action σ (List UInt8)
  | 0 => pure []
  | n + 1 => do
    let b ← next
    let rest ← take next n
    pure (b :: rest)

/-- A 16-bit code unit. -/
def readUnit (next : Action σ UInt8) : Action σ UInt16 := do
  let bytes ← take next 2
  pure (BigEndian.decode bytes).toUInt16

/-- Read until the window of the region is full.  Unlike a fill, this fails when
the stream runs dry; the bytes read before a failure stay in the region. -/
def readBytes (next : Action σ UInt8) : Action (σ × Region) Unit := do
  let room ← gets fun (_, region) => region.remaining
  repeatUntil room (do
    let b ← onFirst next
    onSecond (Region.put b)
    pure none) (pure ())

/-- Read `n` code units and add them to the ones in hand. -/
def readUnits (next : Action σ UInt8) (n : Nat) : Action (σ × Array UInt16) Unit :=
  repeatUntil n (do
    let unit ← onFirst (readUnit next)
    onSecond (Action.modify fun units => units.push unit)
    pure none) (pure ())

/-- Read until the window of the region is full or the stream runs dry, whichever
comes first. -/
def fill (next : Action σ UInt8) : Action (σ × Region) Unit := do
  onSecond Region.requireWritable
  let room ← gets fun (_, region) => region.remaining
  repeatUntil room (do
    match ← attempt (onFirst next) with
    | .ok b =>
      onSecond (Region.put b)
      pure none
    | .error .endOfStream => pure (some ())
    | .error fault => fail fault) (pure ())

/-! ## Writing -/

/-- Write the bytes one after the other, up to the first failure. -/
def writeList (put : UInt8 → Action σ Unit) (bytes : List UInt8) : Action σ Unit :=
  forEach bytes put

/-- Write a 16-bit code unit. -/
def writeUnit (put : UInt8 → Action σ Unit) (unit : UInt16) : Action σ Unit :=
  writeList put (BigEndian.encode 2 unit.toNat)

/-- Write packed bytes, up to the first failure. -/
def writeBytes (put : UInt8 → Action σ Unit) (bytes : Bytes) : Action σ Unit :=
  writeList put bytes.list

/-- Write code units, up to the first failure. -/
def writeUnits (put : UInt8 → Action σ Unit) (units : Array UInt16) : Action σ Unit :=
  forEach units.toList (writeUnit put)

/-- Write the bytes of the window until none is left or the stream takes no more,
whichever comes first.  A byte leaves the window only once it was taken. -/
def drain (put : UInt8 → Action σ Unit) : Action (σ × Region) Unit := do
  let offered ← gets fun (_, region) => region.remaining
  repeatUntil offered (do
    match ← gets fun (_, region) => region.peek with
    | none => pure (some ())
    | some b =>
      match ← attempt (onFirst (put b)) with
      | .ok _ =>
        onSecond (Action.modify fun region => region.skip 1)
        pure none
      | .error .endOfStream => pure (some ())
      | .error fault => fail fault) (pure ())

end ByteFlow.Bytewise
