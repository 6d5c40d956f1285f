import ByteFlow.Sink.Basic

/-!
# Streams over devices

A device is a stream of the outside world: it gives or takes some bytes at a time,
as many as it likes, and it may fail at any call.  A source or sink over a device
asks again until the work is done.  A call that was interrupted is repeated, and
a call that moves nothing means that the device is exhausted.

Asking again ends, since a device has to say how often it may still be interrupted
in a row.

## Main definitions

* `InputDevice`, `OutputDevice` — what a device has to offer.
* `DeviceSource`, `DeviceSink` — the streams over them.
* `InputDevice.readAll`, `InputDevice.readSome` — the loops for exact and for best
  effort reads; `OutputDevice.writeAll`, `OutputDevice.writeSome` for writing.
-/

namespace ByteFlow

open ByteFlow.Action

/-! ## What a device offers -/

/-- A device that gives bytes. -/
class InputDevice (δ : Type) where
  /-- Read at most so many bytes.  None at all means that there are no more. -/
  read : (room : Nat) → δ → Except IoError Bytes × δ
  /-- How many interruptions may still come. -/
  patience : δ → Nat
  read_size_le : ∀ {room : Nat} {d d' : δ} {b : Bytes}, read room d = (.ok b, d') → b.size ≤ room
  patience_read_le : ∀ (room : Nat) (d : δ), patience (read room d).2 ≤ patience d
  patience_interrupted : ∀ {room : Nat} {d d' : δ} {e : IoError},
    read room d = (.error e, d') → e.kind = .interrupted → patience d' < patience d

/-- A device that takes bytes. -/
class OutputDevice (δ : Type) where
  /-- Take some of the bytes from the front and say how many.  None at all means that
  there is no more room. -/
  write : (offered : Bytes) → δ → Except IoError Nat × δ
  /-- Pass on what is held back. -/
  flush : δ → Except IoError Unit × δ
  /-- How many interruptions may still come. -/
  patience : δ → Nat
  write_le : ∀ {offered : Bytes} {d d' : δ} {n : Nat},
    write offered d = (.ok n, d') → n ≤ offered.size
  patience_write_le : ∀ (offered : Bytes) (d : δ), patience (write offered d).2 ≤ patience d
  patience_interrupted : ∀ {offered : Bytes} {d d' : δ} {e : IoError},
    write offered d = (.error e, d') → e.kind = .interrupted → patience d' < patience d

/-! ## Moving bytes -/

namespace InputDevice

variable {δ : Type} [InputDevice δ]

/-- What the device gives when it is asked for at most so many bytes. -/
def receive (room : Nat) : Action δ (Except IoError Bytes) := .of fun device =>
  let (given, device) := read room device
  ⟨.ok given, device, #[]⟩

/-- One read into the window: the number of bytes that came, or the device's error.
A region that cannot be written is refused before the device is asked. -/
def readOnce : Action (δ × Region) (Except IoError Nat) := do
  onSecond Region.requireWritable
  let room ← gets fun (_, region) => region.remaining
  match ← onFirst (receive room) with
  | .ok bytes =>
    let count ← onSecond (Region.putSlice bytes)
    pure (.ok count)
  | .error e => pure (.error e)

/-- Reads into the window until it is full, given what an end and an error mean.  An
interrupted read does not count. -/
def readLoop (atEnd : Action (δ × Region) (Option Unit))
    (onError : IoError → Action (δ × Region) (Option Unit)) : Action (δ × Region) Unit := do
  let turns ← gets fun (device, region) => region.remaining + patience device
  repeatUntil (turns + 1) (do
    if ← gets fun (_, region) => region.hasRemaining then
      match ← readOnce with
      | .ok 0 => atEnd
      | .ok _ => pure none
      | .error e => if e.kind = .interrupted then pure none else onError e
    else
      pure (some ())) (pure ())

/-- Fill the window completely, or fail. -/
def readAll : Action (δ × Region) Unit :=
  readLoop (fail .endOfStream) fun e => fail (.ofIo e)

/-- Fill the window as far as the bytes last. -/
def readSome : Action (δ × Region) Unit :=
  readLoop (pure (some ())) fun e =>
    if e.kind = .unexpectedEof then pure (some ()) else fail (.ofIo e)

end InputDevice

namespace OutputDevice

variable {δ : Type} [OutputDevice δ]

/-- One write from the window: the number of bytes that were taken, or the device's
error. -/
def writeOnce : Action (δ × Region) (Except IoError Nat) := .of fun (device, region) =>
  match write region.window device with
  | (.ok n, device) => ⟨.ok (.ok n), (device, region.skip n), #[]⟩
  | (.error e, device) => ⟨.ok (.error e), (device, region), #[]⟩

/-- Writes from the window until it is empty, given what it means that nothing is
taken, and what an error means.  An interrupted write does not count. -/
def writeLoop (refused : Action (δ × Region) (Option Unit))
    (onError : IoError → Action (δ × Region) (Option Unit)) : Action (δ × Region) Unit := do
  let turns ← gets fun (device, region) => region.remaining + patience device
  repeatUntil (turns + 1) (do
    if ← gets fun (_, region) => region.hasRemaining then
      match ← writeOnce with
      | .ok 0 => refused
      | .ok _ => pure none
      | .error e => if e.kind = .interrupted then pure none else onError e
    else
      pure (some ())) (pure ())

/-- Write the whole window, or fail. -/
def writeAll : Action (δ × Region) Unit :=
  writeLoop (fail .endOfStream) fun e => fail (.ofIo e)

/-- Write the window as far as there is room. -/
def writeSome : Action (δ × Region) Unit :=
  writeLoop (pure (some ())) fun e =>
    if e.kind = .writeZero then pure (some ()) else fail (.ofIo e)

/-- Pass on what the device holds back. -/
def pushOut : Action δ Unit := .of fun device =>
  match flush device with
  | (answer, device) => ⟨answer.mapError .ofIo, device, #[]⟩

end OutputDevice

/-! ## The source -/

/-- A source over a device.  Closing it lets go of the device. -/
structure DeviceSource (δ : Type) where
  device : δ
  closed : Bool := false
  deriving DecidableEq

namespace DeviceSource

variable {δ ρ α : Type}

/-- An operation on the device and on something beside it, refused after closing. -/
def whenOpen (x : Action (δ × ρ) α) : Action (DeviceSource δ × ρ) α :=
  .of fun (⟨device, closed⟩, rest) =>
    if closed then ⟨.error .closed, (⟨device, closed⟩, rest), #[]⟩
    else (x.run (device, rest)).mapState fun (device, rest) => (⟨device, closed⟩, rest)

/-- One byte, read as a region of one byte. -/
def next [InputDevice δ] : Action (DeviceSource δ) UInt8 := do
  let (_, region) ←
    alongside (Region.allocate 1 .indirect) (whenOpen InputDevice.readAll)
  pure (region.bytes.get! 0)

end DeviceSource

instance {δ : Type} [InputDevice δ] : Source (DeviceSource δ) where
  close := modify fun s => { s with closed := true }
  readU8 := DeviceSource.next
  preference := fun _ => .any
  readBytes := DeviceSource.whenOpen InputDevice.readAll
  fill := DeviceSource.whenOpen InputDevice.readSome

instance {δ : Type} [Supply δ] : Supply (DeviceSource δ) where
  supply := fun s => Supply.supply s.device

/-! ## The sink -/

/-- A sink over a device.  Closing it flushes the device and lets go of it, also when
the flush fails. -/
structure DeviceSink (δ : Type) where
  device : δ
  closed : Bool := false
  deriving DecidableEq

namespace DeviceSink

variable {δ ρ α : Type}

/-- An operation on the device, refused after closing. -/
def whenOpen (x : Action δ α) : Action (DeviceSink δ) α := .of fun ⟨device, closed⟩ =>
  if closed then ⟨.error .closed, ⟨device, closed⟩, #[]⟩
  else (x.run device).mapState fun device => ⟨device, closed⟩

/-- An operation on the device and on something beside it, refused after closing. -/
def whenOpenWith (x : Action (δ × ρ) α) : Action (DeviceSink δ × ρ) α :=
  .of fun (⟨device, closed⟩, rest) =>
    if closed then ⟨.error .closed, (⟨device, closed⟩, rest), #[]⟩
    else (x.run (device, rest)).mapState fun (device, rest) => (⟨device, closed⟩, rest)

/-- Write all of the bytes, or fail. -/
def writeBytes [OutputDevice δ] (bytes : Bytes) : Action (DeviceSink δ) Unit := do
  let _ ← alongside (Region.wrapReadOnly bytes) (whenOpenWith OutputDevice.writeAll)

/-- Flush the device for the last time. -/
def shut [OutputDevice δ] : Action (DeviceSink δ) Unit := .of fun ⟨device, closed⟩ =>
  if closed then ⟨.ok (), ⟨device, closed⟩, #[]⟩
  else (OutputDevice.pushOut.run device).mapState fun device => ⟨device, true⟩

end DeviceSink

instance {δ : Type} [OutputDevice δ] : Sink (DeviceSink δ) where
  close := DeviceSink.shut
  writeU8 := fun v => DeviceSink.writeBytes (Bytes.ofList [v])
  preference := fun _ => .any
  flush := DeviceSink.whenOpen OutputDevice.pushOut
  writeBytes := DeviceSink.writeBytes
  drain := DeviceSink.whenOpenWith OutputDevice.writeSome

end ByteFlow
