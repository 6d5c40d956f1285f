import ByteFlow.Preference

/-!
# Summaries and reports of transfers

A transfer answers how many bytes the target took, in how many rounds, and which
way they went.  A report adds how long it took.

## Main definitions

* `Strategy` — the way that the bytes went.
* `Summary` — what a transfer answers.
* `Elapsed` — a span of time.
* `Report` — a summary and a span of time, with `Report.throughput`.
-/

namespace ByteFlow

/-- The way that the bytes of a transfer went. -/
inductive Strategy where
  /-- One by one. -/
  | unbuffered
  /-- In rounds through a region. -/
  | buffered (placement : Placement) (capacity : Nat)
  deriving DecidableEq, Repr

/-- The strategy in running text. -/
def Strategy.label : Strategy → String
  | unbuffered => "unbuffered"
  | buffered placement capacity => "buffered(" ++ placement.label ++ s!", {capacity} bytes)"

/-- What a transfer answers. -/
structure Summary where
  /-- How many bytes the target took. -/
  bytes : Nat
  /-- How many rounds there were; a transfer byte by byte has a round for each. -/
  rounds : Nat
  strategy : Strategy
  deriving DecidableEq, Repr

/-- Whether fewer bytes were moved than were asked for. -/
def Summary.isShortOf (s : Summary) (requested : Nat) : Bool := s.bytes < requested

/-- A span of time: whole seconds, and the nanoseconds that do not make another
one. -/
structure Elapsed where
  seconds : UInt64
  nanoseconds : UInt32
  nanoseconds_lt : nanoseconds.toNat < 1000000000
  deriving DecidableEq, Repr

/-- The span in seconds. -/
def Elapsed.toFloat (e : Elapsed) : Float :=
  e.seconds.toFloat + e.nanoseconds.toFloat / 1000000000.0

/-- A summary and the time that the transfer took. -/
structure Report where
  summary : Summary
  elapsed : Elapsed
  deriving DecidableEq, Repr

/-- Bytes per second; zero where no time passed. -/
def Report.throughput (r : Report) : Float :=
  let seconds := r.elapsed.toFloat
  if seconds > 0.0 then r.summary.bytes.toUInt64.toFloat / seconds else 0.0

end ByteFlow
