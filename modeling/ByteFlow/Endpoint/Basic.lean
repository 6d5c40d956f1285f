import ByteFlow.Endpoint.Device
import ByteFlow.Endpoint.Hashing
import ByteFlow.Endpoint.Memory

/-!
# Endpoints

The streams at the ends of a tree: the ones of this library, over any type of
devices, and streams from outside.

## Main definitions

* `SourceEnd D S`, `SinkEnd D S` — endpoints over devices of type `D`, or streams from
  outside of type `S`.
-/

namespace ByteFlow

/-- A source at the end of a tree. -/
inductive SourceEnd (D S : Type) where
  | memory (stream : MemorySource)
  | device (stream : DeviceSource D)
  | outside (stream : S)

/-- A sink at the end of a tree. -/
inductive SinkEnd (D S : Type) where
  | memory (stream : MemorySink)
  | growing (stream : GrowingSink)
  | hashing (stream : HashingSink)
  | device (stream : DeviceSink D)
  | outside (stream : S)

namespace SourceEnd

variable {D S ρ α : Type}

/-- One operation on whatever the endpoint is, given how it works on each kind. -/
@[inline] def act (memory : Action MemorySource α) (device : Action (DeviceSource D) α)
    (outside : Action S α) : Action (SourceEnd D S) α := .of fun
  | .memory s => (memory.run s).mapState .memory
  | .device s => (device.run s).mapState .device
  | .outside s => (outside.run s).mapState .outside

/-- One operation on whatever the endpoint is and on something beside it, given how
it works on each kind. -/
@[inline] def actWith (memory : Action (MemorySource × ρ) α)
    (device : Action (DeviceSource D × ρ) α) (outside : Action (S × ρ) α) :
    Action (SourceEnd D S × ρ) α := .of fun
  | (.memory s, rest) => (memory.run (s, rest)).mapState fun (s, rest) => (.memory s, rest)
  | (.device s, rest) => (device.run (s, rest)).mapState fun (s, rest) => (.device s, rest)
  | (.outside s, rest) => (outside.run (s, rest)).mapState fun (s, rest) => (.outside s, rest)

end SourceEnd

namespace SinkEnd

variable {D S ρ α : Type}

/-- One operation on whatever the endpoint is, given how it works on each kind. -/
@[inline] def act (memory : Action MemorySink α) (growing : Action GrowingSink α)
    (hashing : Action HashingSink α) (device : Action (DeviceSink D) α) (outside : Action S α) :
    Action (SinkEnd D S) α := .of fun
  | .memory s => (memory.run s).mapState .memory
  | .growing s => (growing.run s).mapState .growing
  | .hashing s => (hashing.run s).mapState .hashing
  | .device s => (device.run s).mapState .device
  | .outside s => (outside.run s).mapState .outside

/-- One operation on whatever the endpoint is and on something beside it, given how
it works on each kind. -/
@[inline] def actWith (memory : Action (MemorySink × ρ) α) (growing : Action (GrowingSink × ρ) α)
    (hashing : Action (HashingSink × ρ) α) (device : Action (DeviceSink D × ρ) α)
    (outside : Action (S × ρ) α) : Action (SinkEnd D S × ρ) α := .of fun
  | (.memory s, rest) => (memory.run (s, rest)).mapState fun (s, rest) => (.memory s, rest)
  | (.growing s, rest) => (growing.run (s, rest)).mapState fun (s, rest) => (.growing s, rest)
  | (.hashing s, rest) => (hashing.run (s, rest)).mapState fun (s, rest) => (.hashing s, rest)
  | (.device s, rest) => (device.run (s, rest)).mapState fun (s, rest) => (.device s, rest)
  | (.outside s, rest) => (outside.run (s, rest)).mapState fun (s, rest) => (.outside s, rest)

end SinkEnd

variable {D S : Type}

open Source in
instance [InputDevice D] [Source S] : Source (SourceEnd D S) where
  close := SourceEnd.act Closeable.close Closeable.close Closeable.close
  readU8 := SourceEnd.act readU8 readU8 readU8
  preference
    | .memory s => preference s
    | .device s => preference s
    | .outside s => preference s
  bound
    | .memory s => bound s
    | .device s => bound s
    | .outside s => bound s
  readBytes := SourceEnd.actWith readBytes readBytes readBytes
  readUnits := fun n => SourceEnd.actWith (readUnits n) (readUnits n) (readUnits n)
  fill := SourceEnd.actWith fill fill fill

open Supply in
instance [Supply D] [Supply S] : Supply (SourceEnd D S) where
  supply
    | .memory s => supply s
    | .device s => supply s
    | .outside s => supply s

open Sink in
instance [OutputDevice D] [Sink S] : Sink (SinkEnd D S) where
  close := SinkEnd.act Closeable.close Closeable.close Closeable.close Closeable.close
    Closeable.close
  writeU8 := fun v =>
    SinkEnd.act (writeU8 v) (writeU8 v) (writeU8 v) (writeU8 v) (writeU8 v)
  preference
    | .memory s => preference s
    | .growing s => preference s
    | .hashing s => preference s
    | .device s => preference s
    | .outside s => preference s
  bound
    | .memory s => bound s
    | .growing s => bound s
    | .hashing s => bound s
    | .device s => bound s
    | .outside s => bound s
  flush := SinkEnd.act flush flush flush flush flush
  writeBytes := fun bytes =>
    SinkEnd.act (writeBytes bytes) (writeBytes bytes) (writeBytes bytes) (writeBytes bytes)
      (writeBytes bytes)
  writeUnits := fun units =>
    SinkEnd.act (writeUnits units) (writeUnits units) (writeUnits units) (writeUnits units)
      (writeUnits units)
  drain := SinkEnd.actWith drain drain drain drain drain

end ByteFlow
