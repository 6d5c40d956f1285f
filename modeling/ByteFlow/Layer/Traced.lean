import ByteFlow.Sink.Basic

/-!
# Traced streams

A traced stream hands its operations on to the stream under it and leaves an event
for each of them, with the answer.  Bulk fills and drains also tell how many bytes
they moved.

## Main definitions

* `Traced` — a stream and the label that its events carry.
-/

namespace ByteFlow

/-- A stream and the label that its events carry. -/
structure Traced (σ : Type) where
  inner : σ
  label : String
  deriving DecidableEq

namespace Traced

variable {σ ρ α : Type}

/-- An operation on the stream under the trace; its event is made from its
answer. -/
def observed (call : Except Fault α → Call) (x : Action σ α) : Action (Traced σ) α :=
  .of fun ⟨inner, label⟩ =>
    match x.run inner with
    | ⟨answer, inner, log⟩ => ⟨answer, ⟨inner, label⟩, log.push (.called label (call answer))⟩

/-- An operation on the stream under the trace and on something beside it.  The
event may use a number taken from that before, and all of it afterwards. -/
def observedWith (before : ρ → Nat) (call : Nat → ρ → Except Fault α → Call)
    (x : Action (σ × ρ) α) : Action (Traced σ × ρ) α :=
  .of fun (⟨inner, label⟩, rest) =>
    let noted := before rest
    match x.run (inner, rest) with
    | ⟨answer, (inner, rest), log⟩ =>
      let event := .called label (call noted rest answer)
      ⟨answer, (⟨inner, label⟩, rest), log.push event⟩

/-- The event of a bulk operation on a region: how far the start of the window went,
and how far it could have gone. -/
def bulkCall (call : (moved room : Nat) → Except Fault Unit → Call) (start : Nat)
    (region : Region) : Except Fault Unit → Call :=
  call (region.position - start) (region.limit - start)

end Traced

variable {σ : Type}

/-- The source with a trace under the given label. -/
def Source.traced [Source σ] (label : String) (s : σ) : Traced σ := ⟨s, label⟩

/-- The sink with a trace under the given label. -/
def Sink.traced [Sink σ] (label : String) (s : σ) : Traced σ := ⟨s, label⟩

instance [Source σ] : Source (Traced σ) where
  close := Traced.observed .close Closeable.close
  readU8 := Traced.observed .readU8 Source.readU8
  preference := fun t => Source.preference t.inner
  bound := fun t => Source.bound t.inner
  readBytes :=
    Traced.observedWith Region.remaining (fun count _ => .readBytes count) Source.readBytes
  readUnits := fun n =>
    Traced.observedWith (fun _ => n) (fun count _ => .readUnits count) (Source.readUnits n)
  fill := Traced.observedWith Region.position (Traced.bulkCall .fill) Source.fill

instance [Supply σ] : Supply (Traced σ) where
  supply := fun t => Supply.supply t.inner

instance [Sink σ] : Sink (Traced σ) where
  close := Traced.observed .close Closeable.close
  writeU8 := fun v => Traced.observed (.writeU8 v) (Sink.writeU8 v)
  preference := fun t => Sink.preference t.inner
  bound := fun t => Sink.bound t.inner
  flush := Traced.observed .flush Sink.flush
  writeBytes := fun bytes =>
    Traced.observed (.writeBytes bytes.size) (Sink.writeBytes bytes)
  writeUnits := fun units =>
    Traced.observed (.writeUnits units.size) (Sink.writeUnits units)
  drain := Traced.observedWith Region.position (Traced.bulkCall .drain) Sink.drain

end ByteFlow
