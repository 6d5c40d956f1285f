import ByteFlow.Sink.Basic

/-!
# Either of two streams

Where there are two types of streams, either of the two is a stream.

## Main definitions

* `Either.act`, `Either.actWith` — one operation on whichever stream it is.
-/

namespace ByteFlow

namespace Either

variable {σ τ ρ α : Type}

/-- One operation on whichever stream it is. -/
@[inline] def act (onLeft : Action σ α) (onRight : Action τ α) : Action (σ ⊕ τ) α := .of fun
  | .inl s => (onLeft.run s).mapState .inl
  | .inr s => (onRight.run s).mapState .inr

/-- One operation on whichever stream it is and on something beside it. -/
@[inline] def actWith (onLeft : Action (σ × ρ) α) (onRight : Action (τ × ρ) α) :
    Action ((σ ⊕ τ) × ρ) α := .of fun
  | (.inl s, rest) => (onLeft.run (s, rest)).mapState fun (s, rest) => (.inl s, rest)
  | (.inr s, rest) => (onRight.run (s, rest)).mapState fun (s, rest) => (.inr s, rest)

end Either

variable {σ τ : Type}

open Source in
instance [Source σ] [Source τ] : Source (σ ⊕ τ) where
  close := Either.act Closeable.close Closeable.close
  readU8 := Either.act readU8 readU8
  preference := Sum.elim preference preference
  bound := Sum.elim bound bound
  readBytes := Either.actWith readBytes readBytes
  readUnits := fun n => Either.actWith (readUnits n) (readUnits n)
  fill := Either.actWith fill fill

instance [Supply σ] [Supply τ] : Supply (σ ⊕ τ) where
  supply := Sum.elim Supply.supply Supply.supply

open Sink in
instance [Sink σ] [Sink τ] : Sink (σ ⊕ τ) where
  close := Either.act Closeable.close Closeable.close
  writeU8 := fun v => Either.act (writeU8 v) (writeU8 v)
  preference := Sum.elim preference preference
  bound := Sum.elim bound bound
  flush := Either.act flush flush
  writeBytes := fun bytes => Either.act (writeBytes bytes) (writeBytes bytes)
  writeUnits := fun units => Either.act (writeUnits units) (writeUnits units)
  drain := Either.actWith drain drain

end ByteFlow
