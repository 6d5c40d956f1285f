import ByteFlow.Proofs.Stepwise.Sink.Device
import ByteFlow.Proofs.Stepwise.Sink.Layer
import ByteFlow.Scripted.Stream

/-!
# Bulk writes to a tree, byte by byte

Every sink in a tree writes byte by byte, whatever it is, so a bulk write to the tree does
what single writes do: it answers the same and leaves the same tree and the same region, also
if something fails in the middle.

## Main definitions

* `BytewiseSink` — sinks that have no bulk operations of their own.
* `Tree.bulkWrite_eq_bytewise` — bulk writes to a tree are writes byte by byte.
-/

namespace ByteFlow

open ByteFlow.Action

variable {D L S : Type}

/-- A sink that leaves all bulk operations to the derived ones, and that can always be flushed
and closed. -/
class BytewiseSink (S : Type) [Sink S] : Prop where
  drain_eq : (Sink.drain : Action (S × Region) Unit) = Bytewise.drain Sink.writeU8
  writeBytes_eq : (Sink.writeBytes : Bytes → Action S Unit) = Bytewise.writeBytes Sink.writeU8
  ends_flush : ∀ s, (Sink.flush : Action S Unit).Ends s fun answer _ => answer = .ok ()
  ends_close : ∀ s, (Closeable.close : Action S Unit).Ends s fun answer _ => answer = .ok ()

instance : BytewiseSink BareSink where
  drain_eq := rfl
  writeBytes_eq := rfl
  ends_flush _ := rfl
  ends_close _ := rfl

/-- The derived operations write byte by byte. -/
theorem BytewiseSink.stepwise [Sink S] [BytewiseSink S] : StepwiseSink S where
  ends_flush s := (ends_flush s).mono fun _ _ h => by simp [h]
  ends_close s := (ends_close s).mono fun _ _ h => by simp [h]
  drain := by
    rw [drain_eq]
    exact Bytewise.stepwise_drain _
  writeBytes := by
    rw [writeBytes_eq]
    exact fun _ _ _ _ => Iff.rfl

namespace SinkEnd

/-- An endpoint takes the steps of its kind. -/
theorem stepwise_act {atEnd : Except Fault Unit} {memory : UInt8 → Action MemorySink Unit}
    {growing : UInt8 → Action GrowingSink Unit} {hashing : UInt8 → Action HashingSink Unit}
    {device : UInt8 → Action (DeviceSink D) Unit} {outside : UInt8 → Action S Unit}
    {memories : Action (MemorySink × Region) Unit} {growings : Action (GrowingSink × Region) Unit}
    {hashings : Action (HashingSink × Region) Unit} {devices : Action (DeviceSink D × Region) Unit}
    {outsides : Action (S × Region) Unit} (hmemory : Sink.Stepwise atEnd memory memories)
    (hgrowing : Sink.Stepwise atEnd growing growings)
    (hhashing : Sink.Stepwise atEnd hashing hashings)
    (hdevice : Sink.Stepwise atEnd device devices)
    (houtside : Sink.Stepwise atEnd outside outsides) :
    Sink.Stepwise atEnd
      (fun v => act (memory v) (growing v) (hashing v) (device v) (outside v))
      (actWith memories growings hashings devices outsides) := by
  intro s r b rest hr
  cases s with
  | memory s => exact hmemory.lift SinkEnd.memory (fun _ _ _ => Iff.rfl) (fun _ _ _ => Iff.rfl) s hr
  | growing s =>
    exact hgrowing.lift SinkEnd.growing (fun _ _ _ => Iff.rfl) (fun _ _ _ => Iff.rfl) s hr
  | hashing s =>
    exact hhashing.lift SinkEnd.hashing (fun _ _ _ => Iff.rfl) (fun _ _ _ => Iff.rfl) s hr
  | device s => exact hdevice.lift SinkEnd.device (fun _ _ _ => Iff.rfl) (fun _ _ _ => Iff.rfl) s hr
  | outside s =>
    exact houtside.lift SinkEnd.outside (fun _ _ _ => Iff.rfl) (fun _ _ _ => Iff.rfl) s hr

/-- An endpoint writes in pieces if its kind does. -/
theorem piecewise_act {memory : UInt8 → Action MemorySink Unit}
    {growing : UInt8 → Action GrowingSink Unit} {hashing : UInt8 → Action HashingSink Unit}
    {device : UInt8 → Action (DeviceSink D) Unit} {outside : UInt8 → Action S Unit}
    {memories : Bytes → Action MemorySink Unit} {growings : Bytes → Action GrowingSink Unit}
    {hashings : Bytes → Action HashingSink Unit} {devices : Bytes → Action (DeviceSink D) Unit}
    {outsides : Bytes → Action S Unit} (hmemory : Sink.Piecewise memory memories)
    (hgrowing : Sink.Piecewise growing growings) (hhashing : Sink.Piecewise hashing hashings)
    (hdevice : Sink.Piecewise device devices) (houtside : Sink.Piecewise outside outsides) :
    Sink.Piecewise (fun v => act (memory v) (growing v) (hashing v) (device v) (outside v))
      fun bytes => act (memories bytes) (growings bytes) (hashings bytes) (devices bytes)
        (outsides bytes) := by
  intro s
  cases s with
  | memory s => exact hmemory.lift SinkEnd.memory (fun _ _ _ => Iff.rfl) (fun _ _ _ => Iff.rfl) s
  | growing s => exact hgrowing.lift SinkEnd.growing (fun _ _ _ => Iff.rfl) (fun _ _ _ => Iff.rfl) s
  | hashing s => exact hhashing.lift SinkEnd.hashing (fun _ _ _ => Iff.rfl) (fun _ _ _ => Iff.rfl) s
  | device s => exact hdevice.lift SinkEnd.device (fun _ _ _ => Iff.rfl) (fun _ _ _ => Iff.rfl) s
  | outside s => exact houtside.lift SinkEnd.outside (fun _ _ _ => Iff.rfl) (fun _ _ _ => Iff.rfl) s

open StepwiseSink in
instance [OutputDevice D] [SteadyDevice D] [Sink S] [BytewiseSink S] :
    StepwiseSink (SinkEnd D S) where
  ends_flush s := by
    cases s with
    | memory s => exact StepwiseSink.ends_flush s
    | growing s => exact StepwiseSink.ends_flush s
    | hashing s => exact StepwiseSink.ends_flush s
    | device s => exact StepwiseSink.ends_flush s
    | outside s => exact BytewiseSink.stepwise.ends_flush s
  ends_close s := by
    cases s with
    | memory s => exact StepwiseSink.ends_close s
    | growing s => exact StepwiseSink.ends_close s
    | hashing s => exact StepwiseSink.ends_close s
    | device s => exact StepwiseSink.ends_close s
    | outside s => exact BytewiseSink.stepwise.ends_close s
  drain := stepwise_act drain drain drain drain BytewiseSink.stepwise.drain
  writeBytes :=
    piecewise_act writeBytes writeBytes writeBytes writeBytes BytewiseSink.stepwise.writeBytes

end SinkEnd

namespace Tree

instance instStepwiseSink [Sink L] [StepwiseSink L] :
    (n : Nat) → StepwiseSink (Tree StandardPolicy L n)
  | 0 => inferInstanceAs (StepwiseSink Empty)
  | n + 1 =>
    have := instStepwiseSink n
    inferInstanceAs (StepwiseSink (Layer StandardPolicy L (Tree StandardPolicy L n)))

/-- A bulk write to a tree does what writing byte by byte does, whatever fails on the way. -/
theorem bulkWrite_eq_bytewise [Sink S] [BytewiseSink S] {n : Nat}
    (t : Tree StandardPolicy (SinkEnd SteadyOutput S) n) {bytes : Bytes} (hbytes : bytes.size ≠ 0)
    {r : Region} (hr : r.WellFormed) (hroom : r.remaining ≠ 0) :
    let byte : UInt8 → Action (Tree StandardPolicy (SinkEnd SteadyOutput S) n) Unit := Sink.writeU8
    (Sink.writeBytes bytes).Agree (Bytewise.writeBytes byte bytes) t ∧
      Sink.drain.Agree (Bytewise.drain byte) (t, r) := by
  have hlist : bytes.list ≠ [] := by
    rwa [← List.length_pos_iff, Nat.pos_iff_ne_zero, Bytes.length_list]
  obtain ⟨b, rest, hshows⟩ := hr.shows hroom
  exact ⟨StepwiseSink.writeBytes.agree hlist t,
    StepwiseSink.drain.agree (Bytewise.stepwise_drain _) hshows t⟩

/-- A member is full in the middle of the window, a device in the second one takes two bytes,
and the one behind is closed. -/
theorem bulkWrite_eq_bytewise_of_fault :
    let T := Tree StandardPolicy (SinkEnd SteadyOutput BareSink) 3
    let t : T := Layer.quota ⟨Layer.chain (.new .close
      [Layer.endpoint (.memory { data := Bytes.ofList [0] }),
        Layer.endpoint (.device
          { device := ⟨⟨some 2, [], [none], ByteArray.empty, ByteArray.empty⟩, rfl, by simp⟩ }),
        Layer.endpoint (.growing { closed := true }), Layer.endpoint (.outside {})]), 5⟩
    let bytes := Bytes.ofList [1, 2, 3, 4, 5, 6]
    let r := Region.wrapReadOnly bytes
    let bulk : Action (T × Region) Unit := Sink.drain
    (Sink.writeBytes bytes).Agree (Bytewise.writeBytes Sink.writeU8 bytes) t ∧
      bulk.Agree (Bytewise.drain Sink.writeU8) (t, r) ∧
      (bulk.run (t, r)).answer = .error .closed ∧ (bulk.run (t, r)).state.2.remaining = 3 := by
  intro T t bytes r bulk
  have hagree := bulkWrite_eq_bytewise t (show bytes.size ≠ 0 by decide)
    (Region.wellFormed_wrapReadOnly bytes) (by decide)
  exact ⟨hagree.1, hagree.2, by decide +kernel, by decide +kernel⟩

end Tree

end ByteFlow
