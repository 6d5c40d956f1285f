import ByteFlow.Sink.Basic
import ByteFlow.Transfer.Config
import ByteFlow.Transfer.Summary

/-!
# Transfers

A transfer moves bytes from a source to a sink until one of them is exhausted or a
limit is reached.  It goes one of two ways.

* Byte by byte: each byte is read and then written.  A sink without room is a
  failure, for the byte that was read is lost.
* In rounds: a region is filled, turned round and drained.  A round in which either
  side came up short is the last one.

Every round that is not the last one takes at least one byte from the source, so
there are no more rounds than the source has bytes, and one.

## Main definitions

* `Plan` — what a transfer was asked to do.
* `Plan.run` — a transfer that picks its way and its buffer itself.
* `Plan.runThrough` — a transfer through a region of the caller.
* `transfer`, `transferAtMost` — the two usual transfers.
-/

namespace ByteFlow

open ByteFlow.Action

/-- What a transfer was asked to do. -/
structure Plan where
  /-- After how many bytes to stop. -/
  limit : Option Nat := none
  bufferSize : Nat := defaultBufferSize
  deriving DecidableEq, Repr

/-- A source, a target, and the region between them. -/
structure Channel (σ τ : Type) where
  source : σ
  target : τ
  region : Region

/-- How far a transfer has come. -/
structure Progress where
  moved : Nat
  rounds : Nat
  deriving DecidableEq, Repr

namespace Channel

variable {σ τ : Type}

/-- Fill the region from the source. -/
def fill [Source σ] : Action (Channel σ τ) Unit := .of fun ⟨source, target, region⟩ =>
  (Source.fill.run (source, region)).mapState fun (source, region) => ⟨source, target, region⟩

/-- Drain the region into the target. -/
def drain [Sink τ] : Action (Channel σ τ) Unit := .of fun ⟨source, target, region⟩ =>
  (Sink.drain.run (target, region)).mapState fun (target, region) => ⟨source, target, region⟩

/-- Change the region. -/
def adjust (f : Region → Region) : Action (Channel σ τ) Unit :=
  modify fun ⟨source, target, region⟩ => ⟨source, target, f region⟩

end Channel

namespace Plan

variable {σ τ : Type}

/-! ## Settings -/

/-- Stop after `n` bytes. -/
def withLimit (n : Nat) (p : Plan) : Plan := { p with limit := some n }

/-- Use a buffer of `n` bytes; with none, go byte by byte. -/
def withBufferSize (n : Nat) (p : Plan) : Plan := { p with bufferSize := n }

/-- Take over settings.  Settings without a limit leave the plan's limit as it is. -/
def withConfig (c : Config) (p : Plan) : Plan where
  bufferSize := c.bufferSize.toNat
  limit := (c.limit.map UInt64.toNat).or p.limit

/-- Whether the plan asks for more than `moved` bytes. -/
def wantsMore (p : Plan) (moved : Nat) : Bool :=
  match p.limit with
  | none => true
  | some limit => moved < limit

/-! ## Byte by byte -/

/-- One byte from the source to the target, unless the plan asks for no more or the
source has none. -/
def moveByte [Source σ] [Sink τ] (p : Plan) : Action ((σ × τ) × Nat) (Option Unit) := do
  if p.wantsMore (← gets Prod.snd) then
    match ← attempt (onFirst (onFirst Source.readU8)) with
    | .ok b =>
      onFirst (onSecond (Sink.writeU8 b))
      onSecond (modify (· + 1))
      pure none
    | .error .endOfStream => pure (some ())
    | .error fault => fail fault
  else
    pure (some ())

/-- A transfer byte by byte. -/
def runUnbuffered [Source σ] [Supply σ] [Sink τ] (p : Plan) : Action (σ × τ) Summary := do
  let turns ← gets fun (source, _) => Supply.supply source
  let (_, moved) ← alongside 0 (repeatUntil (turns + 1) p.moveByte (pure ()))
  pure ⟨moved, moved, .unbuffered⟩

/-! ## In rounds -/

/-- The window for the next round: all of the region, or less when less is asked
for. -/
def openWindow (p : Plan) (moved : Nat) (region : Region) : Region :=
  match p.limit with
  | none => region.clear
  | some limit =>
    if limit - moved < region.capacity then region.clear.setLimit (limit - moved)
    else region.clear

/-- One round, unless the plan asks for no more.  The round answers if it was the
last one. -/
def round [Source σ] [Sink τ] (p : Plan) : Action (Channel σ τ × Progress) (Option Unit) := do
  let moved ← gets fun (_, progress) => progress.moved
  if p.wantsMore moved then
    onFirst (Channel.adjust (p.openWindow moved))
    onFirst Channel.fill
    let sourceDone ← gets fun (channel, _) => channel.region.hasRemaining
    onFirst (Channel.adjust Region.flip)
    let staged ← gets fun (channel, _) => channel.region.remaining
    onFirst Channel.drain
    let remaining ← gets fun (channel, _) => channel.region.remaining
    let targetDone ← gets fun (channel, _) => channel.region.hasRemaining
    let drained := staged - remaining
    onSecond (modify fun ⟨moved, rounds⟩ => ⟨moved + drained, rounds + 1⟩)
    let rounds ← gets fun (_, progress) => progress.rounds
    emit (.round rounds staged drained (moved + drained))
    pure (if sourceDone || targetDone then some () else none)
  else
    onFirst (Channel.adjust Region.clear)
    pure (some ())

/-- A transfer in rounds through a region. -/
def runBuffered [Source σ] [Supply σ] [Sink τ] (p : Plan) : Action (Channel σ τ) Summary := do
  let strategy ← gets fun c => .buffered c.region.placement c.region.capacity
  let turns ← gets fun c => Supply.supply c.source
  let (_, progress) ← alongside ⟨0, 0⟩ (repeatUntil (turns + 1) p.round (pure ()))
  pure ⟨progress.moved, progress.rounds, strategy⟩

/-- A transfer in rounds, for a caller who has the source and the target in one hand
and the region in the other. -/
def runBetween [Source σ] [Supply σ] [Sink τ] (p : Plan) :
    Action ((σ × τ) × Region) Summary :=
  .of fun ((source, target), region) =>
    (p.runBuffered.run ⟨source, target, region⟩).mapState fun ⟨source, target, region⟩ =>
      ((source, target), region)

/-! ## Whole transfers -/

/-- The capacity of a buffer for the plan: no more than the bytes asked for, but at
least one. -/
def capacity (p : Plan) : Nat :=
  match p.limit with
  | none => p.bufferSize
  | some limit => min p.bufferSize (max limit 1)

/-- A transfer that goes in rounds if either side asks for a buffer and the plan
allows one, and byte by byte otherwise. -/
def run [Source σ] [Supply σ] [Sink τ] (p : Plan) : Action (σ × τ) Summary := do
  if maxBufferSize < p.bufferSize then
    fail (.misuse (.oversizedBuffer p.bufferSize maxBufferSize))
  else
    let preference ← gets fun (source, target) =>
      Preference.negotiate (Source.preference source) (Sink.preference target)
    match preference.placement, p.bufferSize with
    | some placement, _ + 1 =>
      emit (.buffered placement p.capacity preference)
      let (summary, _) ← alongside (Region.allocate p.capacity placement) p.runBetween
      pure summary
    | _, _ =>
      emit (.unbuffered preference p.bufferSize)
      p.runUnbuffered

/-- A transfer in rounds through a region of the caller, whose contents are lost.  A
region without room makes the transfer go byte by byte, which is refused when a
limit was asked for. -/
def runThrough [Source σ] [Supply σ] [Sink τ] (p : Plan) :
    Action ((σ × τ) × Region) Summary := do
  if ← gets fun (_, region) => region.readOnly then
    fail (.misuse .unwritableBuffer)
  else if (← gets fun (_, region) => region.capacity) = 0 then
    if p.limit.isSome then
      fail (.misuse .emptyBuffer)
    else
      onFirst p.runUnbuffered
  else
    p.runBetween

end Plan

variable {σ τ : Type} [Source σ] [Supply σ] [Sink τ]

/-- Move bytes until either side is exhausted, and answer how many. -/
def transfer : Action (σ × τ) Nat := do
  let summary ← ({} : Plan).run
  pure summary.bytes

/-- Move at most `n` bytes, and answer how many. -/
def transferAtMost (n : Nat) : Action (σ × τ) Nat := do
  let summary ← (({} : Plan).withLimit n).run
  pure summary.bytes

end ByteFlow
