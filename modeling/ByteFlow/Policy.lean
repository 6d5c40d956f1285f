import ByteFlow.Sink.Basic

/-!
# Close policies

A wrapper that closes asks a policy what to do with the stream under it.  The
policy may act on that stream, and its answer says whether the wrapper is to
count itself as closed from then on.

## Main definitions

* `ClosePolicy P σ` — policies of type `P` for streams of type `σ`.
* `SourcePolicy P`, `SinkPolicy P` — policies that work for every source or sink.
* `StandardPolicy` — the three usual ones.
-/

namespace ByteFlow

/-- What is done to a stream when its wrapper closes.  A policy may keep a state of
its own. -/
class ClosePolicy (P σ : Type) where
  onClose : Action (P × σ) Bool

/-- Policies that work for every source. -/
class SourcePolicy (P : Type) where
  onClose : {σ : Type} → [Source σ] → Action (P × σ) Bool

/-- Policies that work for every sink. -/
class SinkPolicy (P : Type) where
  onClose : {σ : Type} → [Sink σ] → Action (P × σ) Bool

instance {P σ : Type} [SourcePolicy P] [Source σ] : ClosePolicy P σ where
  onClose := SourcePolicy.onClose

instance {P σ : Type} [SinkPolicy P] [Sink σ] : ClosePolicy P σ where
  onClose := SinkPolicy.onClose

/-- The usual policies. -/
inductive StandardPolicy where
  /-- Close the stream, and count as closed. -/
  | close
  /-- Leave the stream open, and do not count as closed. -/
  | leaveOpen
  /-- Leave the stream open, but count as closed. -/
  | fence
  deriving DecidableEq, Repr

namespace StandardPolicy

instance : Inhabited StandardPolicy := ⟨close⟩

/-- What a usual policy does, and whether the wrapper counts as closed. -/
def apply {σ : Type} [Closeable σ] : Action (StandardPolicy × σ) Bool := do
  match ← Action.gets Prod.fst with
  | close =>
    Action.onSecond Closeable.close
    pure true
  | leaveOpen => pure false
  | fence => pure true

instance : SourcePolicy StandardPolicy where
  onClose := apply

instance : SinkPolicy StandardPolicy where
  onClose := apply

end StandardPolicy

end ByteFlow
