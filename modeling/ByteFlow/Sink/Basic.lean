import ByteFlow.Source.Basic

/-!
# Sinks

A sink takes bytes.  It has to say how one byte is written; the bulk operations
are derived from that unless the sink has better ones.

## Main definitions

* `Sink` — streams that take bytes.
* `Sink.drainCompletely` — a bulk write from a drain, for which it is a failure that
  bytes are left over.
-/

namespace ByteFlow

open ByteFlow.Action

/-- A stream that takes bytes. -/
class Sink (σ : Type) extends Closeable σ where
  /-- Take one byte; `Fault.endOfStream` when there is no room for it. -/
  writeU8 : UInt8 → Action σ Unit
  /-- The buffer that suits the sink. -/
  preference : σ → Preference := fun _ => .unsupported
  /-- How many bytes may still pass, where that is limited. -/
  bound : σ → Option Nat := fun _ => none
  /-- Pass on what the sink holds back. -/
  flush : Action σ Unit := pure ()
  /-- Take all of the bytes, or fail. -/
  writeBytes : Bytes → Action σ Unit := Bytewise.writeBytes writeU8
  /-- Take all of the code units, or fail. -/
  writeUnits : Array UInt16 → Action σ Unit := Bytewise.writeUnits writeU8
  /-- Take bytes from the window of a region as long as there is room for them.  To
  have no more room is not a failure; it shows in the bytes that are left. -/
  drain : Action (σ × Region) Unit := Bytewise.drain writeU8

/-- A bulk write from a drain: to leave bytes in the region is a failure. -/
def Sink.drainCompletely {σ : Type} (drain : Action (σ × Region) Unit) (bytes : Bytes) :
    Action σ Unit := do
  let _ ← alongside (Region.wrapReadOnly bytes) (do
    drain
    if ← gets fun (_, region) => region.hasRemaining then
      fail .endOfStream)

/-- No stream at all is a sink too; there is nothing to define. -/
instance : Sink Empty where
  writeU8 := fun _ => .of nofun

end ByteFlow
