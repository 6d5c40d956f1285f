import ByteFlow.Sink.Basic

/-!
# Streams in memory

A source over given bytes, a sink with a fixed number of places, and a sink that
grows.  All of them can be closed, and refuse every data operation afterwards.

## Main definitions

* `MemorySource` — gives the bytes it was made of.
* `MemorySink` — overwrites the bytes it was made of, and has no room beyond them.
* `GrowingSink` — keeps whatever it is given.
-/

namespace ByteFlow

open ByteFlow.Action

/-! ## A source over bytes -/

/-- Bytes that are given from front to back. -/
structure MemorySource where
  data : Bytes
  position : Nat := 0
  closed : Bool := false
  deriving DecidableEq

namespace MemorySource

/-- How many bytes were not given yet. -/
def available (s : MemorySource) : Nat := s.data.size - s.position

/-- The next byte. -/
def next : Action MemorySource UInt8 := .of fun s =>
  if s.closed then ⟨.error .closed, s, #[]⟩
  else
    match s.data[s.position]? with
    | some b => ⟨.ok b, { s with position := s.position + 1 }, #[]⟩
    | none => ⟨.error .endOfStream, s, #[]⟩

/-- As many bytes as the window and the rest of the data allow, in one copy. -/
def copyInto : Action (MemorySource × Region) Unit := do
  if ← gets fun (s, _) => s.closed then
    fail .closed
  let (data, position) ← gets fun (s, _) => (s.data, s.position)
  let count ← onSecond (Region.putFrom data position)
  onFirst (modify fun s => { s with position := s.position + count })

end MemorySource

instance : Source MemorySource where
  close := modify fun s => { s with closed := true }
  readU8 := MemorySource.next
  preference := fun _ => .indirect
  readBytes := Source.fillCompletely MemorySource.copyInto
  fill := MemorySource.copyInto

instance : Supply MemorySource where
  supply := MemorySource.available

/-! ## A sink over bytes -/

/-- Places that are overwritten from front to back. -/
structure MemorySink where
  data : Bytes
  position : Nat := 0
  closed : Bool := false
  deriving DecidableEq

namespace MemorySink

/-- How many places were not written yet. -/
def available (s : MemorySink) : Nat := s.data.size - s.position

/-- The bytes written so far. -/
def written (s : MemorySink) : Bytes := s.data.extract 0 s.position

/-- Write one byte into the next place. -/
def put (v : UInt8) : Action MemorySink Unit := .of fun s =>
  if s.closed then ⟨.error .closed, s, #[]⟩
  else if s.position < s.data.size then
    ⟨.ok (), { s with data := s.data.set! s.position v, position := s.position + 1 }, #[]⟩
  else ⟨.error .endOfStream, s, #[]⟩

/-- As many bytes as the window and the places left allow, in one copy. -/
def copyFrom : Action (MemorySink × Region) Unit :=
  .of fun (⟨data, position, closed⟩, region) =>
    if closed then ⟨.error .closed, (⟨data, position, closed⟩, region), #[]⟩
    else
      let count := min (data.size - position) region.remaining
      let data := data.overwrite position region.bytes region.position count
      ⟨.ok (), (⟨data, position + count, closed⟩, region.skip count), #[]⟩

end MemorySink

instance : Sink MemorySink where
  close := modify fun s => { s with closed := true }
  writeU8 := MemorySink.put
  preference := fun _ => .indirect
  writeBytes := Sink.drainCompletely MemorySink.copyFrom
  drain := MemorySink.copyFrom

/-! ## A sink that grows -/

/-- Bytes to which more are added at the end. -/
structure GrowingSink where
  bytes : Bytes := ByteArray.empty
  closed : Bool := false
  deriving DecidableEq

namespace GrowingSink

/-- Add bytes at the end. -/
def append (more : Bytes) : Action GrowingSink Unit := .of fun ⟨bytes, closed⟩ =>
  if closed then ⟨.error .closed, ⟨bytes, closed⟩, #[]⟩
  else ⟨.ok (), ⟨bytes ++ more, closed⟩, #[]⟩

/-- Add one byte at the end. -/
def push (v : UInt8) : Action GrowingSink Unit := .of fun ⟨bytes, closed⟩ =>
  if closed then ⟨.error .closed, ⟨bytes, closed⟩, #[]⟩
  else ⟨.ok (), ⟨bytes.push v, closed⟩, #[]⟩

/-- Add the whole window at the end. -/
def appendWindow : Action (GrowingSink × Region) Unit := do
  let window ← gets fun (_, region) => region.window
  onFirst (append window)
  onSecond (modify fun region => region.skip region.remaining)

end GrowingSink

instance : Sink GrowingSink where
  close := modify fun s => { s with closed := true }
  writeU8 := GrowingSink.push
  preference := fun _ => .indirect
  writeBytes := GrowingSink.append
  drain := GrowingSink.appendWindow

end ByteFlow
