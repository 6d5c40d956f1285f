import ByteFlow.Layer.Chain
import ByteFlow.Layer.Closing
import ByteFlow.Layer.Quota
import ByteFlow.Layer.Relay
import ByteFlow.Layer.Traced

/-!
# Trees of layers

Layers can be stacked on each other in any order, and a chain has many streams
under it, so what one builds from them are trees.  A tree of depth at most `n + 1`
is an endpoint or one layer over trees of depth at most `n`; there is none of
depth zero.  A statement about all trees is proved by induction on the depth, one
layer at a time.

## Main definitions

* `Layer P L σ` — an endpoint of type `L`, or a layer over streams of type `σ` with
  policies of type `P`.
* `Tree P L n` — trees of depth at most `n`.
-/

namespace ByteFlow

/-- An endpoint, or one layer over other streams. -/
inductive Layer (P L σ : Type) where
  | endpoint (stream : L)
  | quota (stream : Quota σ)
  | closing (stream : Closing P σ)
  | chain (stream : Chain P σ)
  | traced (stream : Traced σ)
  | relay (stream : Relay σ)

namespace Layer

variable {P L σ ρ α : Type}

/-- One operation on whatever the layer is, given how it works on each kind. -/
@[inline] def act (endpoint : Action L α) (quota : Action (Quota σ) α)
    (closing : Action (Closing P σ) α) (chain : Action (Chain P σ) α)
    (traced : Action (Traced σ) α) (relay : Action (Relay σ) α) : Action (Layer P L σ) α := .of fun
  | .endpoint s => (endpoint.run s).mapState .endpoint
  | .quota s => (quota.run s).mapState .quota
  | .closing s => (closing.run s).mapState .closing
  | .chain s => (chain.run s).mapState .chain
  | .traced s => (traced.run s).mapState .traced
  | .relay s => (relay.run s).mapState .relay

/-- One operation on whatever the layer is and on something beside it, given how it
works on each kind. -/
@[inline] def actWith (endpoint : Action (L × ρ) α) (quota : Action (Quota σ × ρ) α)
    (closing : Action (Closing P σ × ρ) α) (chain : Action (Chain P σ × ρ) α)
    (traced : Action (Traced σ × ρ) α) (relay : Action (Relay σ × ρ) α) :
    Action (Layer P L σ × ρ) α := .of fun
  | (.endpoint s, rest) => (endpoint.run (s, rest)).mapState fun (s, rest) => (.endpoint s, rest)
  | (.quota s, rest) => (quota.run (s, rest)).mapState fun (s, rest) => (.quota s, rest)
  | (.closing s, rest) => (closing.run (s, rest)).mapState fun (s, rest) => (.closing s, rest)
  | (.chain s, rest) => (chain.run (s, rest)).mapState fun (s, rest) => (.chain s, rest)
  | (.traced s, rest) => (traced.run (s, rest)).mapState fun (s, rest) => (.traced s, rest)
  | (.relay s, rest) => (relay.run (s, rest)).mapState fun (s, rest) => (.relay s, rest)

end Layer

variable {P L σ : Type}

open Source in
instance [Source L] [Source σ] [ClosePolicy P σ] : Source (Layer P L σ) where
  close := Layer.act Closeable.close Closeable.close Closeable.close Closeable.close
    Closeable.close Closeable.close
  readU8 := Layer.act readU8 readU8 readU8 readU8 readU8 readU8
  preference
    | .endpoint s => preference s
    | .quota s => preference s
    | .closing s => preference s
    | .chain s => preference s
    | .traced s => preference s
    | .relay s => preference s
  bound
    | .endpoint s => bound s
    | .quota s => bound s
    | .closing s => bound s
    | .chain s => bound s
    | .traced s => bound s
    | .relay s => bound s
  readBytes := Layer.actWith readBytes readBytes readBytes readBytes readBytes readBytes
  readUnits := fun n =>
    Layer.actWith (readUnits n) (readUnits n) (readUnits n) (readUnits n) (readUnits n)
      (readUnits n)
  fill := Layer.actWith fill fill fill fill fill fill

open Supply in
instance [Supply L] [Supply σ] : Supply (Layer P L σ) where
  supply
    | .endpoint s => supply s
    | .quota s => supply s
    | .closing s => supply s
    | .chain s => supply s
    | .traced s => supply s
    | .relay s => supply s

open Sink in
instance [Sink L] [Sink σ] [ClosePolicy P σ] : Sink (Layer P L σ) where
  close := Layer.act Closeable.close Closeable.close Closeable.close Closeable.close
    Closeable.close Closeable.close
  writeU8 := fun v =>
    Layer.act (writeU8 v) (writeU8 v) (writeU8 v) (writeU8 v) (writeU8 v) (writeU8 v)
  preference
    | .endpoint s => preference s
    | .quota s => preference s
    | .closing s => preference s
    | .chain s => preference s
    | .traced s => preference s
    | .relay s => preference s
  bound
    | .endpoint s => bound s
    | .quota s => bound s
    | .closing s => bound s
    | .chain s => bound s
    | .traced s => bound s
    | .relay s => bound s
  flush := Layer.act flush flush flush flush flush flush
  writeBytes := fun bytes =>
    Layer.act (writeBytes bytes) (writeBytes bytes) (writeBytes bytes) (writeBytes bytes)
      (writeBytes bytes) (writeBytes bytes)
  writeUnits := fun units =>
    Layer.act (writeUnits units) (writeUnits units) (writeUnits units) (writeUnits units)
      (writeUnits units) (writeUnits units)
  drain := Layer.actWith drain drain drain drain drain drain

/-! ## Trees -/

/-- Trees of layers of depth at most `n`, with endpoints of type `L` and policies of
type `P`. -/
def Tree (P L : Type) : (n : Nat) → Type
  | 0 => Empty
  | n + 1 => Layer P L (Tree P L n)

namespace Tree

/-- A tree of sources is a source, provided that its policies work for every
source. -/
instance instSource [Source L] [SourcePolicy P] : (n : Nat) → Source (Tree P L n)
  | 0 => inferInstanceAs (Source Empty)
  | n + 1 =>
    have := instSource n
    inferInstanceAs (Source (Layer P L (Tree P L n)))

instance instSupply [Supply L] : (n : Nat) → Supply (Tree P L n)
  | 0 => inferInstanceAs (Supply Empty)
  | n + 1 =>
    have := instSupply n
    inferInstanceAs (Supply (Layer P L (Tree P L n)))

/-- A tree of sinks is a sink, provided that its policies work for every sink. -/
instance instSink [Sink L] [SinkPolicy P] : (n : Nat) → Sink (Tree P L n)
  | 0 => inferInstanceAs (Sink Empty)
  | n + 1 =>
    have := instSink n
    inferInstanceAs (Sink (Layer P L (Tree P L n)))

end Tree

end ByteFlow
