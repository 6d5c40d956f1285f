import ByteFlow.Proofs.Admission.Basic

/-!
# Endpoints that let operations in

An endpoint says that it is closed only after it was closed.  A device does not know of this at
all: whatever error it reports, it becomes another fault.

## Main definitions

* `InputDevice.admits_readLoop`, `OutputDevice.admits_writeLoop` — moving bytes in turns.
* `SourceEnd.admits`, `SinkEnd.admits` — an endpoint lets operations in unless it was closed.
-/

namespace ByteFlow

open ByteFlow.Action

variable {D S ρ α : Type}

/-! ## Memory -/

namespace MemorySource

theorem admits_next : Action.Admits (fun s => ¬WasClosed s) next := by
  intro s hs
  have hopen : s.closed = false := Bool.eq_false_of_not_eq_true hs
  rw [ends_next hopen]
  cases s.data.list.drop s.position with
  | nil => exact ⟨by simp [Admitted], hs⟩
  | cons b rest => exact ⟨trivial, hs⟩

theorem admits_copyInto : Action.Admits (fun p => ¬WasClosed p.1) copyInto := by
  rintro ⟨s, r⟩ hs
  have hopen : s.closed = false := Bool.eq_false_of_not_eq_true hs
  cases hreadOnly : r.readOnly with
  | true =>
    rw [ends_copyInto_of_readOnly hopen hreadOnly]
    exact ⟨by simp [Admitted], hs⟩
  | false =>
    rw [ends_copyInto hopen hreadOnly]
    exact ⟨trivial, hs⟩

theorem admits : Source.Admits fun s : MemorySource => ¬WasClosed s :=
  .of_readU8 admits_next admits_copyInto rfl fun _ => rfl

end MemorySource

namespace MemorySink

theorem admits_put (v : UInt8) : Action.Admits (fun s => ¬WasClosed s) (put v) := by
  intro s hs
  have hopen : s.closed = false := Bool.eq_false_of_not_eq_true hs
  rw [ends_put hopen]
  by_cases hfull : s.available = 0
  · rw [if_pos hfull]
    exact ⟨by simp [Admitted], hs⟩
  · rw [if_neg hfull]
    exact ⟨trivial, hs⟩

theorem admits_copyFrom : Action.Admits (fun p => ¬WasClosed p.1) copyFrom := by
  rintro ⟨⟨data, position, closed⟩, r⟩ hs
  obtain rfl : closed = false := Bool.eq_false_of_not_eq_true hs
  exact ⟨trivial, hs⟩

theorem admits : Sink.Admits fun s : MemorySink => ¬WasClosed s :=
  .of_writeU8 admits_put (.pure ()) admits_copyFrom (fun _ => rfl) fun _ => rfl

end MemorySink

namespace GrowingSink

theorem admits_push (v : UInt8) : Action.Admits (fun s => ¬WasClosed s) (push v) := by
  rintro ⟨bytes, closed⟩ hs
  obtain rfl : closed = false := Bool.eq_false_of_not_eq_true hs
  exact ⟨trivial, hs⟩

theorem admits_append (more : Bytes) : Action.Admits (fun s => ¬WasClosed s) (append more) := by
  rintro ⟨bytes, closed⟩ hs
  obtain rfl : closed = false := Bool.eq_false_of_not_eq_true hs
  exact ⟨trivial, hs⟩

theorem admits_appendWindow : Action.Admits (fun p => ¬WasClosed p.1) appendWindow := by
  rintro ⟨⟨bytes, closed⟩, r⟩ hs
  obtain rfl : closed = false := Bool.eq_false_of_not_eq_true hs
  exact ⟨trivial, hs⟩

theorem admits : Sink.Admits fun s : GrowingSink => ¬WasClosed s :=
  ⟨admits_push, .pure (), admits_append, .writeUnits admits_push, admits_appendWindow⟩

end GrowingSink

namespace HashingSink

theorem admits_absorb (bytes : List UInt8) :
    Action.Admits (fun s => ¬WasClosed s) (absorb bytes) := by
  rintro ⟨algorithm, state, count, closed⟩ hs
  obtain rfl : closed = false := Bool.eq_false_of_not_eq_true hs
  exact ⟨trivial, hs⟩

theorem admits_absorbWindow : Action.Admits (fun p => ¬WasClosed p.1) absorbWindow := by
  rintro ⟨⟨algorithm, state, count, closed⟩, r⟩ hs
  obtain rfl : closed = false := Bool.eq_false_of_not_eq_true hs
  exact ⟨trivial, hs⟩

theorem admits : Sink.Admits fun s : HashingSink => ¬WasClosed s :=
  ⟨fun _ => admits_absorb _, .pure (), fun _ => admits_absorb _,
    .writeUnits fun _ => admits_absorb _, admits_absorbWindow⟩

end HashingSink

/-! ## Devices -/

/-- Devices do not know that a stream is closed. -/
theorem Fault.ofIo_ne_closed (e : IoError) : ofIo e ≠ .closed := by
  rw [ofIo]
  split <;> simp

namespace Region

theorem admits_requireWritable : Action.Admits (fun _ => True) requireWritable := by
  rintro ⟨bytes, readOnly, placement, position, limit⟩ _
  cases readOnly with
  | true =>
    change Fault.misuse .readOnlyRegion ≠ .closed ∧ True
    simp
  | false => exact ⟨trivial, trivial⟩

theorem admits_putSlice (src : Bytes) : Action.Admits (fun _ => True) (putSlice src) := by
  intro r _
  cases hreadOnly : r.readOnly with
  | true =>
    rw [putSlice, ends_putFrom_of_readOnly hreadOnly]
    exact ⟨by simp [Admitted], trivial⟩
  | false =>
    rw [putSlice, ends_putFrom hreadOnly]
    exact ⟨trivial, trivial⟩

end Region

/-- A turn is let in if it is neither at an end nor at an error that it says the stream is
closed. -/
theorem admits_deviceTurn {once : Action (D × Region) (Except IoError Nat)}
    {stop : Action (D × Region) (Option Unit)}
    {onError : IoError → Action (D × Region) (Option Unit)}
    (honce : Action.Admits (fun _ => True) once) (hstop : Action.Admits (fun _ => True) stop)
    (herror : ∀ e, Action.Admits (fun _ => True) (onError e)) :
    Action.Admits (fun _ => True) (deviceTurn once stop onError) := by
  refine (Action.Admits.gets _).bind fun more => ?_
  cases more with
  | false => exact .pure (some ())
  | true =>
    refine honce.bind fun answer => ?_
    rcases answer with e | _ | count
    · by_cases hkind : e.kind = .interrupted
      · simp only [hkind, if_true]
        exact .pure none
      · simp only [hkind, if_false]
        exact herror e
    · exact hstop
    · exact .pure none

namespace InputDevice

variable [InputDevice D]

theorem admits_readOnce : Action.Admits (fun _ => True) (readOnce : Action (D × Region) _) := by
  have hreceive (room : Nat) : Action.Admits (fun _ => True) (receive room : Action D _) :=
    fun _ _ => ⟨trivial, trivial⟩
  refine (Region.admits_requireWritable.onSecond (I := fun _ => True)).bind fun _ =>
    (Action.Admits.gets _).bind fun room => (hreceive room).onFirst.bind fun given => ?_
  cases given with
  | ok bytes =>
    exact ((Region.admits_putSlice bytes).onSecond (I := fun _ => True)).bind fun count => .pure _
  | error e => exact .pure _

theorem admits_readLoop {atEnd : Action (D × Region) (Option Unit)}
    {onError : IoError → Action (D × Region) (Option Unit)}
    (hend : Action.Admits (fun _ => True) atEnd)
    (herror : ∀ e, Action.Admits (fun _ => True) (onError e)) :
    Action.Admits (fun _ => True) (readLoop atEnd onError) :=
  (Action.Admits.gets _).bind fun _ =>
    .repeatUntil (admits_deviceTurn admits_readOnce hend herror) (.pure ()) _

theorem admits_readAll : Action.Admits (fun _ => True) (readAll : Action (D × Region) Unit) :=
  admits_readLoop (.fail (by simp)) fun e => .fail (Fault.ofIo_ne_closed e)

theorem admits_readSome : Action.Admits (fun _ => True) (readSome : Action (D × Region) Unit) := by
  refine admits_readLoop (.pure _) fun e => ?_
  by_cases hkind : e.kind = .unexpectedEof
  · simp only [hkind, if_true]
    exact .pure _
  · simp only [hkind, if_false]
    exact .fail (Fault.ofIo_ne_closed e)

end InputDevice

namespace DeviceSource

theorem admits_whenOpen {x : Action (D × ρ) α} (hx : Action.Admits (fun _ => True) x) :
    Action.Admits (fun p => ¬WasClosed p.1) (whenOpen x) := by
  rintro ⟨⟨device, closed⟩, a⟩ hs
  obtain rfl : closed = false := Bool.eq_false_of_not_eq_true hs
  exact ⟨(hx (device, a) trivial).1, hs⟩

theorem admits [InputDevice D] : Source.Admits fun s : DeviceSource D => ¬WasClosed s := by
  have hread : Action.Admits (fun s : DeviceSource D => ¬WasClosed s) next :=
    ((admits_whenOpen InputDevice.admits_readAll).alongside _).bind fun _ => .pure _
  exact ⟨hread, admits_whenOpen InputDevice.admits_readAll, hread.readUnits,
    admits_whenOpen InputDevice.admits_readSome⟩

end DeviceSource

namespace OutputDevice

variable [OutputDevice D]

theorem admits_pushOut : Action.Admits (fun _ => True) (pushOut : Action D Unit) := by
  intro d _
  rw [ends_pushOut]
  cases (flush d).1 with
  | ok _ => exact ⟨trivial, trivial⟩
  | error e => exact ⟨Fault.ofIo_ne_closed e, trivial⟩

theorem admits_writeOnce : Action.Admits (fun _ => True) (writeOnce : Action (D × Region) _) := by
  rintro ⟨d, r⟩ _
  rw [ends_writeOnce]
  rcases write r.window d with ⟨_ | _, _⟩
  · exact ⟨trivial, trivial⟩
  · exact ⟨trivial, trivial⟩

theorem admits_writeLoop {refused : Action (D × Region) (Option Unit)}
    {onError : IoError → Action (D × Region) (Option Unit)}
    (hrefused : Action.Admits (fun _ => True) refused)
    (herror : ∀ e, Action.Admits (fun _ => True) (onError e)) :
    Action.Admits (fun _ => True) (writeLoop refused onError) :=
  (Action.Admits.gets _).bind fun _ =>
    .repeatUntil (admits_deviceTurn admits_writeOnce hrefused herror) (.pure ()) _

theorem admits_writeAll : Action.Admits (fun _ => True) (writeAll : Action (D × Region) Unit) :=
  admits_writeLoop (.fail (by simp)) fun e => .fail (Fault.ofIo_ne_closed e)

theorem admits_writeSome :
    Action.Admits (fun _ => True) (writeSome : Action (D × Region) Unit) := by
  refine admits_writeLoop (.pure _) fun e => ?_
  by_cases hkind : e.kind = .writeZero
  · simp only [hkind, if_true]
    exact .pure _
  · simp only [hkind, if_false]
    exact .fail (Fault.ofIo_ne_closed e)

end OutputDevice

namespace DeviceSink

theorem admits_whenOpen {x : Action D α} (hx : Action.Admits (fun _ => True) x) :
    Action.Admits (fun s => ¬WasClosed s) (whenOpen x) := by
  rintro ⟨device, closed⟩ hs
  obtain rfl : closed = false := Bool.eq_false_of_not_eq_true hs
  exact ⟨(hx device trivial).1, hs⟩

theorem admits_whenOpenWith {x : Action (D × ρ) α} (hx : Action.Admits (fun _ => True) x) :
    Action.Admits (fun p => ¬WasClosed p.1) (whenOpenWith x) := by
  rintro ⟨⟨device, closed⟩, a⟩ hs
  obtain rfl : closed = false := Bool.eq_false_of_not_eq_true hs
  exact ⟨(hx (device, a) trivial).1, hs⟩

theorem admits [OutputDevice D] : Sink.Admits fun s : DeviceSink D => ¬WasClosed s := by
  have hwrite (bytes : Bytes) :
      Action.Admits (fun s : DeviceSink D => ¬WasClosed s) (writeBytes bytes) :=
    ((admits_whenOpenWith OutputDevice.admits_writeAll).alongside _).bind fun _ => .pure _
  exact ⟨fun _ => hwrite _, admits_whenOpen OutputDevice.admits_pushOut, hwrite,
    .writeUnits fun _ => hwrite _, admits_whenOpenWith OutputDevice.admits_writeSome⟩

end DeviceSink

/-! ## Any endpoint -/

namespace SourceEnd

theorem admits [InputDevice D] [Source S] [Closedness S]
    (ho : Source.Admits fun s : S => ¬WasClosed s) :
    Source.Admits fun s : SourceEnd D S => ¬WasClosed s where
  readU8 := ends_act MemorySource.admits.readU8 DeviceSource.admits.readU8 ho.readU8
  readBytes := ends_actWith MemorySource.admits.readBytes DeviceSource.admits.readBytes
    ho.readBytes
  readUnits n := ends_actWith (MemorySource.admits.readUnits n) (DeviceSource.admits.readUnits n)
    (ho.readUnits n)
  fill := ends_actWith MemorySource.admits.fill DeviceSource.admits.fill ho.fill

end SourceEnd

namespace SinkEnd

theorem admits [OutputDevice D] [Sink S] [Closedness S]
    (ho : Sink.Admits fun s : S => ¬WasClosed s) :
    Sink.Admits fun s : SinkEnd D S => ¬WasClosed s where
  writeU8 v := ends_act (MemorySink.admits.writeU8 v) (GrowingSink.admits.writeU8 v)
    (HashingSink.admits.writeU8 v) (DeviceSink.admits.writeU8 v) (ho.writeU8 v)
  flush := ends_act MemorySink.admits.flush GrowingSink.admits.flush HashingSink.admits.flush
    DeviceSink.admits.flush ho.flush
  writeBytes bs := ends_act (MemorySink.admits.writeBytes bs) (GrowingSink.admits.writeBytes bs)
    (HashingSink.admits.writeBytes bs) (DeviceSink.admits.writeBytes bs) (ho.writeBytes bs)
  writeUnits us := ends_act (MemorySink.admits.writeUnits us) (GrowingSink.admits.writeUnits us)
    (HashingSink.admits.writeUnits us) (DeviceSink.admits.writeUnits us) (ho.writeUnits us)
  drain := ends_actWith MemorySink.admits.drain GrowingSink.admits.drain
    HashingSink.admits.drain DeviceSink.admits.drain ho.drain

end SinkEnd

end ByteFlow
