import ByteFlow.Sink.Basic

/-!
# Quotas

A quota is a stream through which only so many bytes may pass.  Once they have,
the stream under it is not asked any more.

A bulk operation is let through with the window of its region narrowed to what is
left of the quota, so the stream under it needs to know nothing of the quota.

## Main definitions

* `Quota` — a stream and the number of bytes that may still pass.
* `Source.bounded`, `Sink.bounded` — a quota on top of a stream, never looser than
  one that is there already.
* `Quota.tighten` — a smaller number for a quota that exists.
* `Quota.clipped` — a bulk operation within the quota.
-/

namespace ByteFlow

open ByteFlow.Action

/-- A stream and the number of bytes that may still pass through it. -/
structure Quota (σ : Type) where
  inner : σ
  remaining : Nat
  deriving DecidableEq

namespace Quota

variable {σ : Type}

/-- The smaller of a limit and what may pass anyway. -/
def tightest (limit : Nat) : Option Nat → Nat
  | none => limit
  | some bound => min bound limit

/-- A quota that exists, made smaller.  A limit that is no smaller changes
nothing. -/
def tighten (limit : Nat) (q : Quota σ) : Quota σ := { q with remaining := min limit q.remaining }

/-- An operation that moves one byte when it succeeds. -/
def counted {α : Type} (x : Action σ α) : Action (Quota σ) α := .of fun ⟨inner, remaining⟩ =>
  if remaining = 0 then ⟨.error .endOfStream, ⟨inner, remaining⟩, #[]⟩
  else
    match x.run inner with
    | ⟨.ok a, inner, log⟩ => ⟨.ok a, ⟨inner, remaining - 1⟩, log⟩
    | ⟨.error fault, inner, log⟩ => ⟨.error fault, ⟨inner, remaining⟩, log⟩

/-- A bulk operation with the window narrowed to the quota.  Afterwards the window
ends where it did before, and the quota has shrunk by the way that the window's
start has gone. -/
def clipped (bulk : Action (σ × Region) Unit) : Action (Quota σ × Region) Unit :=
  .of fun (⟨inner, remaining⟩, region) =>
    if remaining = 0 then ⟨.ok (), (⟨inner, remaining⟩, region), #[]⟩
    else
      let limit := region.limit
      let start := region.position
      let allowed := min region.remaining remaining
      match bulk.run (inner, region.setLimit (start + allowed)) with
      | ⟨answer, (inner, region), log⟩ =>
        ⟨answer, (⟨inner, remaining - (region.position - start)⟩, region.setLimit limit), log⟩

/-- An operation on the stream under the quota, past the quota. -/
def onInner {α : Type} (x : Action σ α) : Action (Quota σ) α := .of fun ⟨inner, remaining⟩ =>
  (x.run inner).mapState fun inner => ⟨inner, remaining⟩

end Quota

variable {σ : Type}

/-- A source that gives at most `limit` bytes more. -/
def Source.bounded [Source σ] (limit : Nat) (s : σ) : Quota σ :=
  ⟨s, Quota.tightest limit (Source.bound s)⟩

/-- A sink that takes at most `limit` bytes more. -/
def Sink.bounded [Sink σ] (limit : Nat) (s : σ) : Quota σ :=
  ⟨s, Quota.tightest limit (Sink.bound s)⟩

instance [Source σ] : Source (Quota σ) where
  close := Quota.onInner Closeable.close
  readU8 := Quota.counted Source.readU8
  preference := fun q => Source.preference q.inner
  bound := fun q => some q.remaining
  readBytes := Source.fillCompletely (Quota.clipped Source.fill)
  fill := Quota.clipped Source.fill

instance [Supply σ] : Supply (Quota σ) where
  supply := fun q => min q.remaining (Supply.supply q.inner)

instance [Sink σ] : Sink (Quota σ) where
  close := Quota.onInner Closeable.close
  writeU8 := fun v => Quota.counted (Sink.writeU8 v)
  preference := fun q => Sink.preference q.inner
  bound := fun q => some q.remaining
  flush := Quota.onInner Sink.flush
  writeBytes := Sink.drainCompletely (Quota.clipped Sink.drain)
  drain := Quota.clipped Sink.drain

end ByteFlow
