import ByteFlow.Sink.Basic

/-!
# Streams that fail where they are told to

Sources and sinks in memory that define nothing but what happens to one byte, and
so show how the derived operations behave.  The faulty ones fail at chosen places,
and count how often they were closed and flushed.

## Main definitions

* `BareSource`, `BareSink` — one byte at a time, and nothing else.
* `FaultySource`, `FaultySink` — with faults at chosen places.
-/

namespace ByteFlow

open ByteFlow.Action

/-! ## Nothing but single bytes -/

/-- Bytes that are given one at a time. -/
structure BareSource where
  data : Bytes
  position : Nat := 0
  deriving DecidableEq

/-- The next byte. -/
def BareSource.next : Action BareSource UInt8 := .of fun s =>
  match s.data[s.position]? with
  | some b => ⟨.ok b, { s with position := s.position + 1 }, #[]⟩
  | none => ⟨.error .endOfStream, s, #[]⟩

instance : Source BareSource where
  readU8 := BareSource.next

instance : Supply BareSource where
  supply := fun s => s.data.size - s.position

/-- Bytes that are taken one at a time, any number of them. -/
structure BareSink where
  written : Bytes := ByteArray.empty
  deriving DecidableEq

instance : Sink BareSink where
  writeU8 := fun v => modify fun s => { s with written := s.written.push v }

/-! ## Faults at chosen places -/

/-- A fault that waits at a place. -/
structure Trap where
  place : Nat
  fault : Fault
  deriving DecidableEq

/-- The first trap at a place, and the traps without it. -/
def Trap.spring (place : Nat) : List Trap → Option (Fault × List Trap)
  | [] => none
  | trap :: rest =>
    if trap.place = place then some (trap.fault, rest)
    else (spring place rest).map fun (fault, others) => (fault, trap :: others)

/-- The answer that the next entry of a list of faults stands for, and the rest of
the list.  No entry stands for success. -/
def nextAnswer : List (Option Fault) → Except Fault Unit × List (Option Fault)
  | [] => (.ok (), [])
  | none :: rest => (.ok (), rest)
  | some fault :: rest => (.error fault, rest)

/-- A source that fails where it is told to. -/
structure FaultySource where
  data : Bytes
  preference : Preference := .unsupported
  bound : Option Nat := none
  /-- Faults at positions; each happens once. -/
  traps : List Trap := []
  /-- What the next closings answer. -/
  closeFaults : List (Option Fault) := []
  position : Nat := 0
  closes : Nat := 0
  deriving DecidableEq

namespace FaultySource

/-- The next byte, or the fault that waits there. -/
def next : Action FaultySource UInt8 := .of fun s =>
  if 0 < s.closes then ⟨.error .closed, s, #[]⟩
  else
    match Trap.spring s.position s.traps with
    | some (fault, traps) => ⟨.error fault, { s with traps := traps }, #[]⟩
    | none =>
      match s.data[s.position]? with
      | some b => ⟨.ok b, { s with position := s.position + 1 }, #[]⟩
      | none => ⟨.error .endOfStream, s, #[]⟩

/-- Closing is counted, and answers what the list says. -/
def shut : Action FaultySource Unit := .of fun s =>
  let (answer, rest) := nextAnswer s.closeFaults
  ⟨answer, { s with closes := s.closes + 1, closeFaults := rest }, #[]⟩

end FaultySource

instance : Source FaultySource where
  close := FaultySource.shut
  readU8 := FaultySource.next
  preference := FaultySource.preference
  bound := FaultySource.bound

instance : Supply FaultySource where
  supply := fun s => s.data.size - s.position

/-- A sink that fails where it is told to. -/
structure FaultySink where
  /-- How many bytes it takes; no number means any number. -/
  capacity : Option Nat := none
  preference : Preference := .unsupported
  bound : Option Nat := none
  /-- Faults at numbers of bytes written; each happens once. -/
  traps : List Trap := []
  /-- What the next closings answer. -/
  closeFaults : List (Option Fault) := []
  /-- What the next flushes answer. -/
  flushFaults : List (Option Fault) := []
  written : Bytes := ByteArray.empty
  closes : Nat := 0
  flushes : Nat := 0
  deriving DecidableEq

namespace FaultySink

/-- Whether there is room for a byte. -/
def hasRoom (s : FaultySink) : Bool :=
  match s.capacity with
  | none => true
  | some capacity => s.written.size < capacity

/-- Take one byte, unless a fault waits there or there is no room. -/
def put (v : UInt8) : Action FaultySink Unit := .of fun s =>
  if 0 < s.closes then ⟨.error .closed, s, #[]⟩
  else
    match Trap.spring s.written.size s.traps with
    | some (fault, traps) => ⟨.error fault, { s with traps := traps }, #[]⟩
    | none =>
      if s.hasRoom then ⟨.ok (), { s with written := s.written.push v }, #[]⟩
      else ⟨.error .endOfStream, s, #[]⟩

/-- Closing is counted, and answers what the list says. -/
def shut : Action FaultySink Unit := .of fun s =>
  let (answer, rest) := nextAnswer s.closeFaults
  ⟨answer, { s with closes := s.closes + 1, closeFaults := rest }, #[]⟩

/-- A flush is counted, and answers what the list says. -/
def flush : Action FaultySink Unit := .of fun s =>
  let (answer, rest) := nextAnswer s.flushFaults
  ⟨answer, { s with flushes := s.flushes + 1, flushFaults := rest }, #[]⟩

end FaultySink

instance : Sink FaultySink where
  close := FaultySink.shut
  writeU8 := FaultySink.put
  preference := FaultySink.preference
  bound := FaultySink.bound
  flush := FaultySink.flush

end ByteFlow
