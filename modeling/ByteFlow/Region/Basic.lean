import ByteFlow.Action
import ByteFlow.Bytes

/-!
# Regions

A region is a block of bytes of fixed capacity with a window in it, from
`position` up to `limit`.  It is filled at the front of the window, turned round
with `flip`, and then gives back the same bytes in the same order.

Bulk operations say through the window how far they came: a region with room left
after a fill, or with bytes left after a drain, is how a stream reports that it is
exhausted.

## Main definitions

* `Region` — the bytes, who may write them, and the window.
* `Region.allocate`, `Region.wrap`, `Region.wrapReadOnly` — new regions.
* `Region.clear`, `Region.flip`, `Region.setLimit`, `Region.advance` — the window.
* `Region.put`, `Region.stage`, `Region.putFrom`, `Region.putSlice` — writing into the window.
* `Region.peek`, `Region.window`, `Region.filled` — what is in the region.
* `Region.WellFormed` — the window lies inside the bytes.
-/

namespace ByteFlow

/-- A block of bytes with a window `[position, limit)`. -/
structure Region where
  bytes : Bytes
  readOnly : Bool
  placement : Placement
  position : Nat
  limit : Nat
  deriving DecidableEq

/-- A window was to be moved further than it reaches. -/
structure Overrun where
  requested : Nat
  remaining : Nat
  deriving DecidableEq, Repr

/-- The wording of an overrun. -/
def Overrun.message (o : Overrun) : String :=
  s!"cannot advance region by {o.requested}: only {o.remaining} remaining"

namespace Region

/-! ## New regions -/

/-- A region of zeros, ready to be filled. -/
def allocate (capacity : Nat) (placement : Placement) : Region where
  bytes := Bytes.replicate capacity 0
  readOnly := false
  placement := placement
  position := 0
  limit := capacity

/-- A region over given bytes, ready to be filled. -/
def wrap (bytes : Bytes) : Region where
  bytes := bytes
  readOnly := false
  placement := .indirect
  position := 0
  limit := bytes.size

/-- A region over given bytes that can only be drained. -/
def wrapReadOnly (bytes : Bytes) : Region where
  bytes := bytes
  readOnly := true
  placement := .indirect
  position := 0
  limit := bytes.size

/-! ## Looking at a region -/

/-- How many bytes the region has, inside and outside its window. -/
def capacity (r : Region) : Nat := r.bytes.size

/-- The width of the window. -/
def remaining (r : Region) : Nat := r.limit - r.position

/-- Whether the window holds at least one byte. -/
def hasRemaining (r : Region) : Bool := r.position < r.limit

/-- The bytes of the window. -/
def window (r : Region) : Bytes := r.bytes.extract r.position r.limit

/-- The bytes before the window. -/
def filled (r : Region) : Bytes := r.bytes.extract 0 r.position

/-- The first byte of the window. -/
def peek (r : Region) : Option UInt8 :=
  if r.hasRemaining then r.bytes[r.position]? else none

/-- The window lies inside the bytes. -/
structure WellFormed (r : Region) : Prop where
  position_le : r.position ≤ r.limit
  limit_le : r.limit ≤ r.capacity

/-- The region as trace lines show it. -/
def shown (r : Region) : String :=
  "Region \x7b placement: " ++ r.placement.name
    ++ s!", position: {r.position}, limit: {r.limit}, capacity: {r.capacity}"
    ++ s!", read_only: {r.readOnly} " ++ "\x7d"

/-! ## Moving the window -/

/-- The window over all bytes, for a new filling. -/
def clear (r : Region) : Region := { r with position := 0, limit := r.capacity }

/-- The window over what has been filled, for draining it. -/
def flip (r : Region) : Region := { r with position := 0, limit := r.position }

/-- The window with another end.  The end cannot lie beyond the bytes, and a start
beyond the new end is pulled back to it. -/
def setLimit (r : Region) (limit : Nat) : Region :=
  let limit := min limit r.capacity
  { r with position := min r.position limit, limit := limit }

/-- The window without its first `n` bytes, for a caller who knows that it has so
many. -/
def skip (r : Region) (n : Nat) : Region := { r with position := r.position + n }

/-- The window without its first `n` bytes.  It is an error to go beyond its end. -/
def advance (r : Region) (n : Nat) : Except Overrun Region :=
  if n ≤ r.remaining then .ok (r.skip n) else .error ⟨n, r.remaining⟩

/-! ## Writing into the window -/

/-- Refuse a region that cannot be written. -/
def requireWritable : Action Region Unit := .of fun r =>
  if r.readOnly then ⟨.error (.misuse .readOnlyRegion), r, #[]⟩ else ⟨.ok (), r, #[]⟩

/-- Write one byte at the front of the window and move past it. -/
def put (v : UInt8) : Action Region Unit := .of fun r =>
  if !r.hasRemaining then ⟨.error (.misuse .regionFull), r, #[]⟩
  else if r.readOnly then ⟨.error (.misuse .readOnlyRegion), r, #[]⟩
  else ⟨.ok (), { r with bytes := r.bytes.set! r.position v, position := r.position + 1 }, #[]⟩

/-- Write the bytes of `src` from `start` on into the window, as many as fit, and
answer how many these are.  The window does not move. -/
def stage (src : Bytes) (start : Nat) : Action Region Nat := .of fun r =>
  if r.readOnly then ⟨.error (.misuse .readOnlyRegion), r, #[]⟩
  else
    let count := min r.remaining (src.size - start)
    ⟨.ok count, { r with bytes := r.bytes.overwrite r.position src start count }, #[]⟩

/-- Write the bytes of `src` from `start` on into the window, as many as fit, move
past them, and answer how many these are. -/
def putFrom (src : Bytes) (start : Nat) : Action Region Nat := do
  let count ← stage src start
  Action.modify fun r => r.skip count
  pure count

/-- Write the bytes of `src` into the window, as many as fit, and move past them. -/
def putSlice (src : Bytes) : Action Region Nat := putFrom src 0

/-- What the window holds, for a caller who is going to write into it. -/
def unfilled : Action Region Bytes := do
  requireWritable
  Action.gets window

end Region

end ByteFlow
