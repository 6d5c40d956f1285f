import ByteFlow.Proofs.Stepwise.Device
import ByteFlow.Proofs.Stepwise.Layer

/-!
# Bulk reads from a tree, byte by byte

Every stream in a tree reads byte by byte, whatever it is, so a bulk read from the tree does
what the derived one does: it answers the same and leaves the same tree and the same region,
also if something fails in the middle.

## Main definitions

* `BytewiseSource` — sources that have no bulk operations of their own.
* `Tree.bulk_eq_bytewise` — bulk reads from a tree are reads byte by byte.
-/

namespace ByteFlow

open ByteFlow.Action

variable {D L S : Type}

/-- A source that leaves all bulk operations to the derived ones, and that can always be
closed. -/
class BytewiseSource (S : Type) [Source S] : Prop extends PlainSource S where
  readBytes_eq : (Source.readBytes : Action (S × Region) Unit) = Bytewise.readBytes Source.readU8
  ends_close : ∀ s, (Closeable.close : Action S Unit).Ends s fun answer _ => answer = .ok ()

instance : BytewiseSource BareSource where
  readBytes_eq := rfl
  ends_close _ := rfl

/-- The derived operations read byte by byte. -/
theorem BytewiseSource.stepwise [Source S] [BytewiseSource S] : StepwiseSource S where
  ends_close := ends_close
  fill := by
    rw [PlainSource.fill_eq]
    exact Bytewise.stepwise_fill _
  readBytes := by
    rw [readBytes_eq]
    exact Bytewise.stepwise_readBytes _

/-- An endpoint takes the steps of its kind. -/
theorem SourceEnd.stepwise_act {atEnd : Except Fault Unit} {memory : Action MemorySource UInt8}
    {device : Action (DeviceSource D) UInt8} {outside : Action S UInt8}
    {memories : Action (MemorySource × Region) Unit}
    {devices : Action (DeviceSource D × Region) Unit} {outsides : Action (S × Region) Unit}
    (hmemory : Stepwise atEnd memory memories) (hdevice : Stepwise atEnd device devices)
    (houtside : Stepwise atEnd outside outsides) :
    Stepwise atEnd (act memory device outside) (actWith memories devices outsides) := by
  intro s
  cases s with
  | memory s => exact hmemory.lift SourceEnd.memory (fun _ _ => Iff.rfl) (fun _ _ _ => Iff.rfl) s
  | device s => exact hdevice.lift SourceEnd.device (fun _ _ => Iff.rfl) (fun _ _ _ => Iff.rfl) s
  | outside s =>
    exact houtside.lift SourceEnd.outside (fun _ _ => Iff.rfl) (fun _ _ _ => Iff.rfl) s

instance [InputDevice D] [DivisibleDevice D] [Source S] [BytewiseSource S] :
    StepwiseSource (SourceEnd D S) where
  ends_close
    | .memory s => StepwiseSource.ends_close s
    | .device s => StepwiseSource.ends_close s
    | .outside s => BytewiseSource.ends_close s
  fill :=
    SourceEnd.stepwise_act StepwiseSource.fill StepwiseSource.fill BytewiseSource.stepwise.fill
  readBytes :=
    SourceEnd.stepwise_act StepwiseSource.readBytes StepwiseSource.readBytes
      BytewiseSource.stepwise.readBytes

namespace Tree

instance instStepwiseSource [Source L] [StepwiseSource L] :
    (n : Nat) → StepwiseSource (Tree StandardPolicy L n)
  | 0 => inferInstanceAs (StepwiseSource Empty)
  | n + 1 =>
    have := instStepwiseSource n
    inferInstanceAs (StepwiseSource (Layer StandardPolicy L (Tree StandardPolicy L n)))

/-- A bulk read from a tree does what reading byte by byte does, whatever fails on the way. -/
theorem bulk_eq_bytewise [Source S] [BytewiseSource S] {n : Nat}
    (t : Tree StandardPolicy (SourceEnd CleanInput S) n) {r : Region} (hr : r.Writable)
    (hroom : r.remaining ≠ 0) :
    let byte : Action (Tree StandardPolicy (SourceEnd CleanInput S) n) UInt8 := Source.readU8
    Source.readBytes.Agree (Bytewise.readBytes byte) (t, r) ∧
      Source.fill.Agree (Bytewise.fill byte) (t, r) :=
  ⟨StepwiseSource.readBytes.agree (Bytewise.stepwise_readBytes _) hr hroom t,
    StepwiseSource.fill.agree (Bytewise.stepwise_fill _) hr hroom t⟩

/-- The first member ends in the middle of the window, and a device fails in the second. -/
theorem bulk_eq_bytewise_of_fault :
    let t : Tree StandardPolicy (SourceEnd CleanInput BareSource) 2 :=
      Layer.chain (.new .close
        [Layer.endpoint (.outside { data := Bytes.ofList [1, 2] }),
          Layer.endpoint (.device
            { device := ⟨⟨[.fault ⟨.interrupted, "again"⟩, .data (Bytes.ofList [3, 4]),
                .fault ⟨.timedOut, "late"⟩]⟩, by simp⟩ })])
    let r := Region.allocate 6 .direct
    let fill : Action (Tree StandardPolicy (SourceEnd CleanInput BareSource) 2 × Region) Unit :=
      Source.fill
    fill.Agree (Bytewise.fill Source.readU8) (t, r) ∧
      (fill.run (t, r)).answer = .error (.io ⟨.timedOut, "late"⟩) ∧
      (fill.run (t, r)).state.2.filled.list = [1, 2, 3, 4] := by
  intro t r fill
  exact ⟨(bulk_eq_bytewise t (Region.writable_allocate 6 .direct) nofun).2, rfl, by decide +kernel⟩

end Tree

end ByteFlow
