import ByteFlow.Proofs.Meter.Endpoint
import ByteFlow.Proofs.Quota.Stack
import ByteFlow.Proofs.Stepwise.Device
import ByteFlow.Proofs.Stepwise.Sink.Device

/-!
# The foot of a stack

Every endpoint tells how a single byte went, and never comes to have a bound if it has none.  Over
a device a byte takes a loop, which asks again after an interruption; it succeeds only once the
byte went through.

## Main definitions

* `InputDevice.ends_readAll_told` — an exact read from a device that does what it likes.
* `OutputDevice.sends_put` — a byte to a device that does what it likes.
* `RigidSource`, `RigidSink` — streams from outside whose bound never changes.
* Instances of `CandidSource` and `CandidSink` for all endpoints.
-/

namespace ByteFlow

open ByteFlow.Action

variable {δ S T D E : Type}

/-! ## Streams in memory -/

theorem MemorySource.gives_next : Gives (fun _ => True) next 1 fun bs => bs.headD 0 := by
  intro s _
  cases hclosed : s.closed with
  | true =>
    rw [Ends, next]
    simp only [hclosed, if_true]
    exact ⟨[], Meter.refl s, Nat.zero_lt_one⟩
  | false =>
    rw [ends_next hclosed]
    cases hdrop : s.data.list.drop s.position with
    | nil => exact ⟨[], Meter.refl s, Nat.zero_lt_one⟩
    | cons b bs =>
      refine ⟨[b], ⟨rfl, ?_⟩, rfl, rfl⟩
      rw [← List.drop_drop, hdrop]
      rfl

theorem MemorySink.sends_put : Sends (fun _ => True) put := by
  intro s b _
  cases hclosed : s.closed with
  | true =>
    rw [Ends, put]
    simp only [hclosed, if_true]
    exact Meter.refl s
  | false =>
    rw [ends_put hclosed]
    by_cases havailable : s.available = 0
    · rw [if_pos havailable]
      exact Meter.refl s
    · rw [if_neg havailable]
      exact moved_receive (Nat.pos_of_ne_zero havailable)

theorem GrowingSink.sends_push : Sends (fun _ => True) push := by
  intro s b _
  rcases s with ⟨bytes, _ | _⟩
  · exact Bytes.list_push ..
  · exact Meter.refl _

theorem HashingSink.sends_absorb : Sends (fun _ => True) fun b => absorb [b] := by
  intro s b _
  rcases s with ⟨algorithm, state, count, _ | _⟩
  · exact ⟨rfl, rfl, rfl⟩
  · exact Meter.refl _

/-! ## Devices -/

namespace InputDevice

variable [InputDevice δ]

/-- An exact read succeeds only once the window is full, and fails only while it is not. -/
theorem ends_readAll_told (d : δ) {r : Region} (hr : r.Writable) :
    readAll.Ends (d, r) fun answer p =>
      ∃ bs, Trail d bs p.1 ∧ p.2 = r.receive bs ∧ Told r.remaining (fun _ => ()) answer bs := by
  rw [readAll, readLoop, ends_gets_bind]
  dsimp only
  generalize hturns : r.remaining + patience d + 1 = turns
  replace hturns : r.remaining + patience d < turns := by omega
  induction turns generalizing d r with
  | zero => omega
  | succ n ih =>
    rw [ends_repeatUntil_succ, ends_gets_bind]
    by_cases hroom : r.remaining = 0
    · rw [if_neg (by simpa using hroom)]
      exact ⟨[], .refl d, r.receive_nil.symm, hroom.symm, rfl⟩
    rw [if_pos (by simpa using hroom), ends_bind, ends_readOnce d hr]
    rcases hread : read r.remaining d with ⟨e | given, d'⟩
    · have htrail : Trail d [] d' := .fault hread (.refl d')
      by_cases hkind : e.kind = .interrupted
      · -- the device was asked in vain, so it has less patience left
        have hpatience := patience_interrupted hread hkind
        simp only [hkind, if_true, ends_pure]
        refine (ih d' hr (by omega)).mono ?_
        rintro answer p ⟨bs, hbs, hp, htold⟩
        exact ⟨bs, htrail.trans hbs, hp, htold⟩
      · simp only [hkind, if_false]
        exact ⟨[], htrail, r.receive_nil.symm, Nat.pos_of_ne_zero hroom⟩
    · have hsize : given.list.length ≤ r.remaining := read_size_le hread
      have htrail : Trail d given.list d' := by
        simpa using Trail.read hread (.refl d')
      dsimp only
      rw [← Bytes.length_list]
      cases hgiven : given.list with
      | nil =>
        rw [hgiven] at htrail
        exact ⟨[], htrail, rfl, Nat.pos_of_ne_zero hroom⟩
      | cons b bs =>
        have hless := turns_read_lt hread (by simp [hgiven])
        rw [hgiven] at htrail hsize hless
        simp only [List.length_cons, ends_pure]
        refine (ih d' (hr.receive hsize) (by omega)).mono ?_
        rintro answer p ⟨more, hmore, hp, htold⟩
        rw [Region.remaining_receive] at htold
        refine ⟨b :: bs ++ more, htrail.trans hmore, ?_, htold.append hsize⟩
        rw [hp, Region.receive_receive hr.toWellFormed]

theorem gives_next : @Gives δ UInt8 (meter δ) (fun _ => True) next 1 fun bs => bs.headD 0 := by
  intro d _
  simp only [next, ends_bind, ends_alongside]
  refine (ends_readAll_told d (Region.writable_allocate 1 .indirect)).mono ?_
  rintro answer p ⟨bs, hbs, hp, htold⟩
  cases answer with
  | error fault => exact ⟨bs, hbs, htold⟩
  | ok _ =>
    obtain ⟨b, rfl⟩ := List.length_eq_one_iff.1 htold.1
    have hbyte : p.2.bytes.get! 0 = b := by
      rw [hp]
      rfl
    exact ⟨[b], hbs, rfl, hbyte⟩

end InputDevice

theorem DeviceSource.gives_next [InputDevice δ] :
    Gives (fun _ => True) (next : Action (DeviceSource δ) UInt8) 1 fun bs => bs.headD 0 := by
  intro s _
  rcases s with ⟨d, _ | _⟩
  · rw [ends_next]
    exact InputDevice.gives_next d trivial
  · exact ⟨[], Meter.refl _, Nat.zero_lt_one⟩

/-- A byte goes to a device, or it fails and takes none. -/
theorem OutputDevice.sends_put [OutputDevice δ] :
    @Sends δ (meter δ) (fun _ => True) put := by
  intro d b _
  generalize hpatience : patience d = n
  induction n using Nat.strongRecOn generalizing d with
  | ind n ih =>
    rw [ends_put]
    rcases hwrite : write (Bytes.ofList [b]) d with ⟨e | taken, d'⟩
    · have htrail : Trail d [] d' := .fault hwrite (.refl d')
      dsimp only
      split
      · have hless := patience_interrupted hwrite ‹_›
        refine (ih (patience d') (by omega) d' rfl).mono ?_
        intro answer d'' hd
        cases answer with
        | error fault => exact htrail.trans hd
        | ok _ => exact htrail.trans hd
      · exact htrail
    · have htrail : Trail d ([b].take taken) d' := by
        simpa using Trail.write hwrite (.refl d')
      dsimp only
      cases taken with
      | zero => exact htrail
      | succ k =>
        rw [List.take_of_length_le (Nat.succ_le_succ (Nat.zero_le k))] at htrail
        exact htrail

theorem DeviceSink.sends_writeBytes [OutputDevice δ] :
    Sends (σ := DeviceSink δ) (fun _ => True) fun b => writeBytes (Bytes.ofList [b]) := by
  intro s b _
  rcases s with ⟨d, _ | _⟩
  · rw [ends_writeBytes]
    exact OutputDevice.sends_put d b trivial
  · exact Meter.refl _

/-! ## Streams from outside -/

/-- A source whose bound never changes. -/
class RigidSource (S : Type) [Source S] : Prop where
  bound_readU8 : ∀ s : S,
    Source.bound ((Source.readU8 : Action S UInt8).run s).state = Source.bound s
  bound_close : ∀ s : S,
    Source.bound ((Closeable.close : Action S Unit).run s).state = Source.bound s

/-- A sink whose bound never changes. -/
class RigidSink (T : Type) [Sink T] : Prop where
  bound_writeU8 : ∀ (s : T) (b : UInt8),
    Sink.bound ((Sink.writeU8 b : Action T Unit).run s).state = Sink.bound s
  bound_flush : ∀ s : T, Sink.bound ((Sink.flush : Action T Unit).run s).state = Sink.bound s
  bound_close : ∀ s : T,
    Sink.bound ((Closeable.close : Action T Unit).run s).state = Sink.bound s

instance : RigidSource BareSource := ⟨fun _ => rfl, fun _ => rfl⟩
instance : RigidSink BareSink := ⟨fun _ _ => rfl, fun _ => rfl, fun _ => rfl⟩

instance : RigidSource FaultySource where
  bound_readU8 s := by
    change (FaultySource.next.run s).state.bound = s.bound
    rw [FaultySource.next]
    dsimp only
    split
    · rfl
    · split
      · rfl
      · split <;> rfl
  bound_close _ := rfl

instance : RigidSink FaultySink where
  bound_writeU8 s b := by
    change ((FaultySink.put b).run s).state.bound = s.bound
    rw [FaultySink.put]
    dsimp only
    split
    · rfl
    · split
      · rfl
      · split <;> rfl
  bound_flush _ := rfl
  bound_close _ := rfl

theorem Source.Trail.bound_eq [Source S] [RigidSource S] {s t : S} {bs : List UInt8}
    (h : Trail s bs t) : bound t = bound s := by
  induction h with
  | refl => rfl
  | read _ _ ih => exact ih.trans (RigidSource.bound_readU8 _)
  | fault _ _ ih => exact ih.trans (RigidSource.bound_readU8 _)
  | close _ ih => exact ih.trans (RigidSource.bound_close _)

theorem Sink.Trail.bound_eq [Sink T] [RigidSink T] {s t : T} {bs : List UInt8}
    (h : Trail s bs t) : bound t = bound s := by
  induction h with
  | refl => rfl
  | write _ _ ih => exact ih.trans (RigidSink.bound_writeU8 _ _)
  | fault _ _ ih => exact ih.trans (RigidSink.bound_writeU8 _ _)
  | flush _ ih => exact ih.trans (RigidSink.bound_flush _)
  | close _ ih => exact ih.trans (RigidSink.bound_close _)

/-- A source from outside is metered by the answers that it gives. -/
theorem Source.gives_readU8 [Source S] :
    @Gives S UInt8 (meter S) (fun _ => True) readU8 1 fun bs => bs.headD 0 := by
  intro s _
  rw [Ends]
  rcases hanswer : ((readU8 : Action S UInt8).run s).answer with fault | b
  · exact ⟨[], .fault hanswer (.refl _), Nat.zero_lt_one⟩
  · exact ⟨[b], .read hanswer (.refl _), rfl, rfl⟩

theorem Sink.sends_writeU8 [Sink T] : @Sends T (meter T) (fun _ => True) writeU8 := by
  intro s b _
  rw [Ends]
  rcases hanswer : ((writeU8 b : Action T Unit).run s).answer with fault | _
  · exact .fault hanswer (.refl _)
  · exact .write hanswer (.refl _)

/-! ## Any endpoint -/

instance [InputDevice D] [Source S] [PlainSource S] [RigidSource S] :
    CandidSource (SourceEnd D S) where
  bound_eq_none {s t bs} hmoved hs := by
    -- only a stream from outside can have a bound
    cases s <;> cases t <;> try exact hmoved.elim
    all_goals first | rfl | exact (Source.Trail.bound_eq hmoved).trans hs
  readU8
    | .memory s, _ => MemorySource.gives_next s trivial
    | .device s, _ => DeviceSource.gives_next s trivial
    | .outside s, _ => Source.gives_readU8 s trivial
  fill := MeteredSource.fill

instance [OutputDevice E] [Sink T] [PlainSink T] [RigidSink T] : CandidSink (SinkEnd E T) where
  bound_eq_none {s t bs} hmoved hs := by
    cases s <;> cases t <;> try exact hmoved.elim
    all_goals first | rfl | exact (Sink.Trail.bound_eq hmoved).trans hs
  writeU8
    | .memory s, b, _ => MemorySink.sends_put s b trivial
    | .growing s, b, _ => GrowingSink.sends_push s b trivial
    | .hashing s, b, _ => HashingSink.sends_absorb s b trivial
    | .device s, b, _ => DeviceSink.sends_writeBytes s b trivial
    | .outside s, b, _ => Sink.sends_writeU8 s b trivial
  drain := MeteredSink.drain

end ByteFlow
