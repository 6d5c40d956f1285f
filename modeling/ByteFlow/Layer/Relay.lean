import ByteFlow.Sink.Basic

/-!
# Relays

A relay stands for another stream and hands every operation on to it.  It lets a
stream be lent to a wrapper and be had back afterwards.

## Main definitions

* `Relay` — a stream that is another stream.
-/

namespace ByteFlow

/-- A stream that hands every operation on to another one. -/
structure Relay (σ : Type) where
  inner : σ
  deriving DecidableEq

namespace Relay

variable {σ ρ α : Type}

/-- An operation on the stream that is stood for. -/
def pass (x : Action σ α) : Action (Relay σ) α := .of fun ⟨inner⟩ =>
  (x.run inner).mapState fun inner => ⟨inner⟩

/-- An operation on the stream that is stood for and on something beside it. -/
def passWith (x : Action (σ × ρ) α) : Action (Relay σ × ρ) α := .of fun (⟨inner⟩, rest) =>
  (x.run (inner, rest)).mapState fun (inner, rest) => (⟨inner⟩, rest)

end Relay

variable {σ : Type}

instance [Source σ] : Source (Relay σ) where
  close := Relay.pass Closeable.close
  readU8 := Relay.pass Source.readU8
  preference := fun r => Source.preference r.inner
  bound := fun r => Source.bound r.inner
  readBytes := Relay.passWith Source.readBytes
  readUnits := fun n => Relay.passWith (Source.readUnits n)
  fill := Relay.passWith Source.fill

instance [Supply σ] : Supply (Relay σ) where
  supply := fun r => Supply.supply r.inner

instance [Sink σ] : Sink (Relay σ) where
  close := Relay.pass Closeable.close
  writeU8 := fun v => Relay.pass (Sink.writeU8 v)
  preference := fun r => Sink.preference r.inner
  bound := fun r => Sink.bound r.inner
  flush := Relay.pass Sink.flush
  writeBytes := fun bytes => Relay.pass (Sink.writeBytes bytes)
  writeUnits := fun units => Relay.pass (Sink.writeUnits units)
  drain := Relay.passWith Sink.drain

end ByteFlow
