import ByteFlow.Bytewise

/-!
# Sources

A source gives bytes.  It has to say how one byte is read; the bulk operations are
derived from that unless the source has better ones.

## Main definitions

* `Closeable` — streams that can release what is behind them.
* `Source` — streams that give bytes.
* `Supply` — an upper bound on the bytes that a source still has.
* `Source.fillCompletely` — a fill for which running dry is a failure.
-/

namespace ByteFlow

open ByteFlow.Action

/-- A stream that can release what is behind it.  Closing twice must be harmless,
for a wrapper may close the stream under it more than once. -/
class Closeable (σ : Type) where
  close : Action σ Unit := pure ()

/-- A stream that gives bytes. -/
class Source (σ : Type) extends Closeable σ where
  /-- The next byte; `Fault.endOfStream` when there is none. -/
  readU8 : Action σ UInt8
  /-- The buffer that suits the source. -/
  preference : σ → Preference := fun _ => .unsupported
  /-- How many bytes may still pass, where that is limited. -/
  bound : σ → Option Nat := fun _ => none
  /-- Fill the window of a region completely, or fail. -/
  readBytes : Action (σ × Region) Unit := Bytewise.readBytes readU8
  /-- Read a number of code units and add them to the ones in hand. -/
  readUnits : Nat → Action (σ × Array UInt16) Unit := Bytewise.readUnits readU8
  /-- Fill the window of a region as far as the bytes last.  Running dry is not a
  failure; it shows in the room that the region has left. -/
  fill : Action (σ × Region) Unit := Bytewise.fill readU8

/-- A source with a known end: it cannot give more bytes than `supply`. -/
class Supply (σ : Type) where
  supply : σ → Nat

/-- A bulk read from a fill: to leave room in the region is a failure. -/
def Source.fillCompletely {σ : Type} (fill : Action (σ × Region) Unit) :
    Action (σ × Region) Unit := do
  fill
  if ← gets fun (_, region) => region.hasRemaining then
    fail .endOfStream

/-- No stream at all is a source too; there is nothing to define. -/
instance : Source Empty where
  readU8 := .of nofun

instance : Supply Empty where
  supply := nofun

end ByteFlow
