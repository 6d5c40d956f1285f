import ByteFlow.Digest.Algorithm
import ByteFlow.Sink.Basic

/-!
# A sink that hashes

The sink takes any number of bytes and keeps only their digest and their number.

## Main definitions

* `HashingSink` — the sink, with `HashingSink.finish` for the digest.
-/

namespace ByteFlow

open ByteFlow.Action

/-- A sink that keeps the digest of what it was given. -/
structure HashingSink where
  algorithm : Digest.Algorithm
  state : Digest.State
  /-- How many bytes the sink took. -/
  count : Nat
  closed : Bool

namespace HashingSink

/-- A sink that was given nothing yet. -/
def new (algorithm : Digest.Algorithm) : HashingSink := ⟨algorithm, .start algorithm, 0, false⟩

/-- The digest of everything taken so far, whether or not the sink was closed. -/
def finish (s : HashingSink) : Bytes := Bytes.ofList s.state.finish

/-- The sink as trace lines show it. -/
def shown (s : HashingSink) : String :=
  "DigestWriter \x7b alg: " ++ s.algorithm.name ++ s!", bytes_written: {s.count}"
    ++ s!", closed: {s.closed} " ++ "\x7d"

/-- Take bytes. -/
def absorb (bytes : List UInt8) : Action HashingSink Unit :=
  .of fun ⟨algorithm, state, count, closed⟩ =>
    if closed then ⟨.error .closed, ⟨algorithm, state, count, closed⟩, #[]⟩
    else
      ⟨.ok (), ⟨algorithm, state.feed bytes, count + bytes.length, closed⟩, #[]⟩

/-- Take the whole window. -/
def absorbWindow : Action (HashingSink × Region) Unit := do
  let window ← gets fun (_, region) => region.window
  onFirst (absorb window.list)
  onSecond (modify fun region => region.skip region.remaining)

end HashingSink

instance : Sink HashingSink where
  close := modify fun s => { s with closed := true }
  writeU8 := fun v => HashingSink.absorb [v]
  preference := fun _ => .any
  writeBytes := fun bytes => HashingSink.absorb bytes.list
  drain := HashingSink.absorbWindow

end ByteFlow
