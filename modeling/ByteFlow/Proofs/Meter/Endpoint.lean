import ByteFlow.Endpoint.Basic
import ByteFlow.Endpoint.Either
import ByteFlow.Proofs.Memory
import ByteFlow.Proofs.Meter.Basic
import ByteFlow.Scripted.Stream

/-!
# Bytes that went through an endpoint

At the ends of a tree it has to be said outright which bytes went through.  A stream in
memory shows it in its state.  A device and a stream from outside may be anything, so for
these it is told by their calls: what was given or taken at each of them, whatever other
calls failed in between.

## Main definitions

* `InputDevice.Trail`, `OutputDevice.Trail` — what a device gave or took.
* `Source.Trail`, `Sink.Trail` — what a stream from outside gave or took, byte by byte.
* `PlainSource`, `PlainSink` — streams that leave the bulk operations to the derived ones.
* Instances of `Meter`, `MeteredSource` and `MeteredSink` for all endpoints.
-/

namespace ByteFlow

open ByteFlow.Action

/-! ## Streams in memory -/

instance : Meter MemorySource where
  Moved s bs t :=
    t.data = s.data ∧ s.data.list.drop s.position = bs ++ t.data.list.drop t.position
  refl s := ⟨rfl, rfl⟩
  trans h h' := ⟨h'.1.trans h.1, by rw [h.2, h'.2, List.append_assoc]⟩

instance : MeteredSource MemorySource where
  close s := ⟨rfl, rfl⟩
  fill s r hr := by
    change MemorySource.copyInto.Ends (s, r) _
    cases hclosed : s.closed with
    | true =>
      rw [MemorySource.ends_copyInto_of_closed hclosed]
      exact Poured.refl s r
    | false =>
      rw [MemorySource.ends_copyInto hclosed hr.readOnly_eq]
      refine ⟨_, List.length_take_le .., ⟨rfl, ?_⟩, rfl⟩
      rw [MemorySource.drop_copied, List.take_append_drop]

instance : Meter MemorySink where
  Moved s bs t :=
    t.written.list = s.written.list ++ bs ∧ t.position = s.position + bs.length ∧
      t.data.size = s.data.size
  refl s := ⟨(List.append_nil _).symm, rfl, rfl⟩
  trans h h' := by
    refine ⟨?_, ?_, h'.2.2.trans h.2.2⟩
    · rw [h'.1, h.1, List.append_assoc]
    · rw [h'.2.1, h.2.1, List.length_append, Nat.add_assoc]

namespace MemorySink

theorem moved_receive {s : MemorySink} {bs : List UInt8} (h : bs.length ≤ s.available) :
    Moved s bs (s.receive bs) :=
  ⟨list_written_receive h, rfl, size_receive h⟩

/-- A copy drains the window, for any meter that sees what is written to the next places. -/
theorem drains_copyFrom [Meter MemorySink] (hreceive : ∀ {s : MemorySink} {bs : List UInt8},
    bs.length ≤ s.available → Moved s bs (s.receive bs)) : Drains copyFrom := by
  intro s r hr
  cases hclosed : s.closed with
  | true =>
    rw [ends_copyFrom_of_closed hclosed]
    exact Drained.refl s r
  | false =>
    rw [ends_copyFrom hclosed hr]
    refine ⟨min s.available r.remaining, Nat.min_le_right .., ?_, rfl⟩
    rw [← hr.length_window, ← List.take_eq_take_min]
    exact hreceive (List.length_take_le ..)

instance : MeteredSink MemorySink where
  close := Meter.refl
  flush := quiet_pure ()
  drain := drains_copyFrom moved_receive

end MemorySink

instance : Meter GrowingSink where
  Moved s bs t := t.bytes.list = s.bytes.list ++ bs
  refl s := (List.append_nil _).symm
  trans h h' := by rw [h', h, List.append_assoc]

instance : MeteredSink GrowingSink where
  close := Meter.refl
  flush := quiet_pure ()
  drain s r hr := by
    change GrowingSink.appendWindow.Ends (s, r) _
    rw [GrowingSink.ends_appendWindow]
    by_cases hclosed : s.closed = true
    · rw [if_pos hclosed]
      exact Drained.refl s r
    · rw [if_neg hclosed]
      refine ⟨r.remaining, Nat.le_refl _, ?_, rfl⟩
      rw [← hr.length_window, List.take_length]
      exact Bytes.list_append ..

/-- A hashing sink keeps no bytes, but its digest is one over all of them. -/
instance : Meter HashingSink where
  Moved s bs t :=
    t.algorithm = s.algorithm ∧ t.state = s.state.feed bs ∧ t.count = s.count + bs.length
  refl s := ⟨rfl, by cases h : s.state <;> rfl, rfl⟩
  trans h h' := by
    refine ⟨h'.1.trans h.1, ?_, ?_⟩
    · rw [h'.2.1, h.2.1, Digest.State.feed_append]
    · rw [h'.2.2, h.2.2, List.length_append, Nat.add_assoc]

instance : MeteredSink HashingSink where
  close := Meter.refl
  flush := quiet_pure ()
  drain s r hr := by
    change HashingSink.absorbWindow.Ends (s, r) _
    rw [HashingSink.ends_absorbWindow]
    by_cases hclosed : s.closed = true
    · rw [if_pos hclosed]
      exact Drained.refl s r
    · rw [if_neg hclosed]
      refine ⟨r.remaining, Nat.le_refl _, ?_, rfl⟩
      rw [← hr.length_window, List.take_length]
      exact ⟨rfl, rfl, rfl⟩

/-! ## Devices -/

namespace InputDevice

variable {δ : Type} [InputDevice δ]

/-- What a device gave over some calls.  A call that failed gave nothing. -/
inductive Trail : δ → List UInt8 → δ → Prop
  | refl (d) : Trail d [] d
  | read {room d given d' bs d''} :
    InputDevice.read room d = (.ok given, d') → Trail d' bs d'' → Trail d (given.list ++ bs) d''
  | fault {room d e d' bs d''} :
    InputDevice.read room d = (.error e, d') → Trail d' bs d'' → Trail d bs d''

theorem Trail.trans {d d' d'' : δ} {bs cs : List UInt8} (h : Trail d bs d')
    (h' : Trail d' cs d'') : Trail d (bs ++ cs) d'' := by
  induction h with
  | refl => exact h'
  | read hread _ ih =>
    rw [List.append_assoc]
    exact .read hread (ih h')
  | fault hread _ ih => exact .fault hread (ih h')

/-- A device is metered by its calls. -/
@[reducible] def meter (δ : Type) [InputDevice δ] : Meter δ where
  Moved := Trail
  refl := .refl
  trans := .trans

theorem ends_receive (room : Nat) (d : δ) (Q : Except Fault (Except IoError Bytes) → δ → Prop) :
    (receive room).Ends d Q ↔ Q (.ok (read room d).1) (read room d).2 := Iff.rfl

/-- All that the device gives fits into the window. -/
theorem ends_readOnce_of_not_readOnly (d : δ) {r : Region} (hr : r.readOnly = false)
    (Q : Except Fault (Except IoError Nat) → δ × Region → Prop) :
    readOnce.Ends (d, r) Q ↔
      match read r.remaining d with
      | (.ok given, d') => Q (.ok (.ok given.size)) (d', r.receive given.list)
      | (.error e, d') => Q (.ok (.error e)) (d', r) := by
  rw [readOnce, ends_bind, ends_onSecond, Region.ends_requireWritable hr]
  simp only [ends_gets_bind]
  rw [ends_bind, ends_onFirst, ends_receive]
  rcases hread : read r.remaining d with ⟨e | given, d'⟩
  · rfl
  · have hsize : given.size ≤ r.remaining := read_size_le hread
    have hgiven : (given.list.drop 0).take r.remaining = given.list := by
      rw [List.drop_zero]
      exact List.take_of_length_le hsize
    simp only [Region.putSlice, ends_bind, ends_onSecond, Region.ends_putFrom hr, hgiven,
      Nat.sub_zero, Nat.min_eq_right hsize]
    rfl

theorem ends_readOnce (d : δ) {r : Region} (hr : r.Writable)
    (Q : Except Fault (Except IoError Nat) → δ × Region → Prop) :
    readOnce.Ends (d, r) Q ↔
      match read r.remaining d with
      | (.ok given, d') => Q (.ok (.ok given.size)) (d', r.receive given.list)
      | (.error e, d') => Q (.ok (.error e)) (d', r) :=
  ends_readOnce_of_not_readOnly d hr.readOnly_eq Q

/-- Whatever an end and an error mean, the window shows what the device gave. -/
theorem pours_readLoop {atEnd : Action (δ × Region) (Option Unit)}
    {onError : IoError → Action (δ × Region) (Option Unit)}
    (hend : ∀ p, atEnd.Ends p fun _ q => q = p)
    (herror : ∀ e p, (onError e).Ends p fun _ q => q = p) :
    @Pours δ (meter δ) (readLoop atEnd onError) := by
  let _ := meter δ
  intro d r hr
  rw [readLoop, ends_gets_bind]
  dsimp only
  generalize r.remaining + patience d + 1 = turns
  induction turns generalizing d r with
  | zero => exact Poured.refl d r
  | succ n ih =>
    rw [ends_repeatUntil_succ, ends_gets_bind]
    by_cases hroom : r.hasRemaining = true
    · rw [if_pos hroom, ends_bind, ends_readOnce d hr]
      have hgo {d' q} (h : Poured d r (d', q)) := (ih d' q (h.writable hr)).mono
        fun _ p hp => h.trans hr.toWellFormed hp
      rcases hread : read r.remaining d with ⟨e | given, d'⟩
      · have hp : Poured d r (d', r) :=
          ⟨[], Nat.zero_le _, .fault hread (.refl d'), r.receive_nil.symm⟩
        by_cases hkind : e.kind = .interrupted
        · simp only [hkind, if_true]
          exact hgo hp
        · simp only [hkind, if_false]
          exact (herror e (d', r)).of_unchanged (hgo hp) hp
      · have htrail : Trail d given.list d' := by
          simpa using Trail.read hread (.refl d')
        have hp : Poured d r (d', r.receive given.list) :=
          ⟨given.list, read_size_le hread, htrail, rfl⟩
        dsimp only
        cases given.size with
        | zero =>
          exact (hend (d', r.receive given.list)).of_unchanged (hgo hp) hp
        | succ k => exact hgo hp
    · rw [if_neg hroom]
      exact Poured.refl d r

theorem pours_readSome : @Pours δ (meter δ) readSome := by
  refine pours_readLoop (fun p => rfl) ?_
  intro e p
  split <;> rfl

end InputDevice

namespace OutputDevice

variable {δ : Type} [OutputDevice δ]

/-- What a device took over some calls.  A call that failed took nothing. -/
inductive Trail : δ → List UInt8 → δ → Prop
  | refl (d) : Trail d [] d
  | write {offered d n d' bs d''} :
    OutputDevice.write offered d = (.ok n, d') → Trail d' bs d'' →
      Trail d (offered.list.take n ++ bs) d''
  | fault {offered d e d' bs d''} :
    OutputDevice.write offered d = (.error e, d') → Trail d' bs d'' → Trail d bs d''
  | flush {d answer d' bs d''} :
    OutputDevice.flush d = (answer, d') → Trail d' bs d'' → Trail d bs d''

theorem Trail.trans {d d' d'' : δ} {bs cs : List UInt8} (h : Trail d bs d')
    (h' : Trail d' cs d'') : Trail d (bs ++ cs) d'' := by
  induction h with
  | refl => exact h'
  | write hwrite _ ih =>
    rw [List.append_assoc]
    exact .write hwrite (ih h')
  | fault hwrite _ ih => exact .fault hwrite (ih h')
  | flush hflush _ ih => exact .flush hflush (ih h')

/-- A device is metered by its calls. -/
@[reducible] def meter (δ : Type) [OutputDevice δ] : Meter δ where
  Moved := Trail
  refl := .refl
  trans := .trans

theorem quiet_pushOut : @Quiet δ Unit (meter δ) pushOut := fun _ => .flush rfl (.refl _)

theorem ends_writeOnce (d : δ) (r : Region)
    (Q : Except Fault (Except IoError Nat) → δ × Region → Prop) :
    writeOnce.Ends (d, r) Q ↔
      match write r.window d with
      | (.ok n, d') => Q (.ok (.ok n)) (d', r.skip n)
      | (.error e, d') => Q (.ok (.error e)) (d', r) := by
  simp only [Ends, writeOnce]
  rcases write r.window d with ⟨_ | _, d'⟩ <;> rfl

/-- Whatever a refusal and an error mean, the window has lost what the device took. -/
theorem drains_writeLoop {refused : Action (δ × Region) (Option Unit)}
    {onError : IoError → Action (δ × Region) (Option Unit)}
    (hrefused : ∀ p, refused.Ends p fun _ q => q = p)
    (herror : ∀ e p, (onError e).Ends p fun _ q => q = p) :
    @Drains δ (meter δ) (writeLoop refused onError) := by
  let _ := meter δ
  intro d r hr
  rw [writeLoop, ends_gets_bind]
  dsimp only
  generalize r.remaining + patience d + 1 = turns
  induction turns generalizing d r with
  | zero => exact Drained.refl d r
  | succ n ih =>
    rw [ends_repeatUntil_succ, ends_gets_bind]
    by_cases hroom : r.hasRemaining = true
    · rw [if_pos hroom, ends_bind, ends_writeOnce]
      have hgo {d' q} (h : Drained d r (d', q)) := (ih d' q (h.wellFormed hr)).mono
        fun _ p hp => h.trans hp
      rcases hwrite : write r.window d with ⟨e | taken, d'⟩
      · have hp : Drained d r (d', r) := ⟨0, Nat.zero_le _, .fault hwrite (.refl d'), rfl⟩
        by_cases hkind : e.kind = .interrupted
        · simp only [hkind, if_true]
          exact hgo hp
        · simp only [hkind, if_false]
          exact (herror e (d', r)).of_unchanged (hgo hp) hp
      · have htaken : taken ≤ r.remaining := by
          rw [← hr.length_window]
          exact write_le hwrite
        have htrail : Trail d (r.window.list.take taken) d' := by
          simpa using Trail.write hwrite (.refl d')
        have hp : Drained d r (d', r.skip taken) := ⟨taken, htaken, htrail, rfl⟩
        dsimp only
        cases taken with
        | zero =>
          exact (hrefused (d', r.skip 0)).of_unchanged (hgo hp) hp
        | succ k => exact hgo hp
    · rw [if_neg hroom]
      exact Drained.refl d r

theorem drains_writeSome : @Drains δ (meter δ) writeSome := by
  refine drains_writeLoop (fun p => rfl) ?_
  intro e p
  split <;> rfl

end OutputDevice

section Device

variable {δ : Type}

instance [InputDevice δ] : Meter (DeviceSource δ) where
  Moved s bs t := InputDevice.Trail s.device bs t.device
  refl s := .refl s.device
  trans := .trans

instance [InputDevice δ] : MeteredSource (DeviceSource δ) where
  close s := InputDevice.Trail.refl s.device
  fill := by
    intro s r hr
    rcases s with ⟨device, _ | _⟩
    · exact InputDevice.pours_readSome device r hr
    · exact Poured.refl _ r

instance [OutputDevice δ] : Meter (DeviceSink δ) where
  Moved s bs t := OutputDevice.Trail s.device bs t.device
  refl s := .refl s.device
  trans := .trans

instance [OutputDevice δ] : MeteredSink (DeviceSink δ) where
  close := by
    intro s
    rcases s with ⟨device, _ | _⟩
    · exact OutputDevice.quiet_pushOut device
    · exact OutputDevice.Trail.refl device
  flush := by
    intro s
    rcases s with ⟨device, _ | _⟩
    · exact OutputDevice.quiet_pushOut device
    · exact OutputDevice.Trail.refl device
  drain := by
    intro s r hr
    rcases s with ⟨device, _ | _⟩
    · exact OutputDevice.drains_writeSome device r hr
    · exact Drained.refl _ r

end Device

/-! ## Streams from outside -/

section Derived

variable {σ : Type} [Meter σ]

/-- A derived fill moves the bytes that were read one by one. -/
theorem Bytewise.pours_fill {next : Action σ UInt8}
    (hok : ∀ s b, (next.run s).answer = .ok b → Moved s [b] (next.run s).state)
    (herror : ∀ s fault, (next.run s).answer = .error fault → Moved s [] (next.run s).state) :
    Pours (fill next) := by
  intro s r hr
  rw [fill, ends_bind, ends_onSecond, Region.ends_requireWritable hr.readOnly_eq]
  simp only [ends_gets_bind]
  generalize hn : r.remaining = n
  replace hn : n ≤ r.remaining := Nat.le_of_eq hn.symm
  induction n generalizing s r with
  | zero => exact Poured.refl s r
  | succ n ih =>
    rw [ends_repeatUntil_succ, ends_attempt_bind, ends_onFirst, Ends]
    rcases hanswer : (next.run s).answer with fault | b
    · have hp : Poured s r ((next.run s).state, r) :=
        ⟨[], Nat.zero_le _, herror s fault hanswer, r.receive_nil.symm⟩
      cases fault <;> exact hp
    · have hp : Poured s r ((next.run s).state, r.receive [b]) :=
        ⟨[b], by rw [List.length_singleton]; omega, hok s b hanswer, rfl⟩
      dsimp only
      rw [ends_bind, ends_onSecond, Region.ends_put hr (by omega)]
      refine (ih _ _ (hp.writable hr) ?_).mono fun _ p h => hp.trans hr.toWellFormed h
      rw [Region.remaining_receive, List.length_singleton]
      omega

/-- A derived drain moves the bytes that were written one by one. -/
theorem Bytewise.drains_drain {put : UInt8 → Action σ Unit}
    (hok : ∀ s b, ((put b).run s).answer = .ok () → Moved s [b] ((put b).run s).state)
    (herror : ∀ s b fault,
      ((put b).run s).answer = .error fault → Moved s [] ((put b).run s).state) :
    Drains (drain put) := by
  intro s r hr
  rw [drain, ends_gets_bind]
  dsimp only
  generalize r.remaining = n
  induction n generalizing s r with
  | zero => exact Drained.refl s r
  | succ n ih =>
    rw [ends_repeatUntil_succ, ends_gets_bind]
    cases hwindow : r.window.list with
    | nil =>
      have hpeek : r.peek = none := by rw [r.peek_eq, hwindow, List.head?_nil]
      rw [hpeek]
      exact Drained.refl s r
    | cons b rest =>
      have hpeek : r.peek = some b := by rw [r.peek_eq, hwindow, List.head?_cons]
      have hlen : 1 ≤ r.remaining := by
        rw [← hr.length_window, hwindow, List.length_cons]
        omega
      rw [hpeek]
      dsimp only
      rw [ends_attempt_bind, ends_onFirst, Ends]
      rcases hanswer : ((put b).run s).answer with fault | _
      · have hp : Drained s r (((put b).run s).state, r) :=
          ⟨0, Nat.zero_le _, herror s b fault hanswer, rfl⟩
        cases fault <;> exact hp
      · have hp : Drained s r (((put b).run s).state, r.skip 1) :=
          ⟨1, hlen, by rw [hwindow]; exact hok s b hanswer, rfl⟩
        exact (ih _ _ (hp.wellFormed hr)).mono fun _ p h => hp.trans h

end Derived

/-- A source that has no fill of its own. -/
class PlainSource (S : Type) [Source S] : Prop where
  fill_eq : (Source.fill : Action (S × Region) Unit) = Bytewise.fill Source.readU8

/-- A sink that has no drain of its own. -/
class PlainSink (S : Type) [Sink S] : Prop where
  drain_eq : (Sink.drain : Action (S × Region) Unit) = Bytewise.drain Sink.writeU8

instance : PlainSource BareSource := ⟨rfl⟩
instance : PlainSource FaultySource := ⟨rfl⟩
instance : PlainSink BareSink := ⟨rfl⟩
instance : PlainSink FaultySink := ⟨rfl⟩

namespace Source

variable {S : Type} [Source S]

/-- What a source gave over some calls.  A call that failed gave nothing. -/
inductive Trail : S → List UInt8 → S → Prop
  | refl (s) : Trail s [] s
  | read {s b bs u} :
    ((readU8 : Action S UInt8).run s).answer = .ok b →
      Trail ((readU8 : Action S UInt8).run s).state bs u → Trail s (b :: bs) u
  | fault {s f bs u} :
    ((readU8 : Action S UInt8).run s).answer = .error f →
      Trail ((readU8 : Action S UInt8).run s).state bs u → Trail s bs u
  | close {s bs u} :
    Trail ((Closeable.close : Action S Unit).run s).state bs u → Trail s bs u

theorem Trail.trans {s t u : S} {bs cs : List UInt8} (h : Trail s bs t) (h' : Trail t cs u) :
    Trail s (bs ++ cs) u := by
  induction h with
  | refl => exact h'
  | read hread _ ih => exact .read hread (ih h')
  | fault hread _ ih => exact .fault hread (ih h')
  | close _ ih => exact .close (ih h')

/-- A source from outside is metered by its calls. -/
@[reducible] def meter (S : Type) [Source S] : Meter S where
  Moved := Trail
  refl := .refl
  trans := .trans

theorem pours_fill [PlainSource S] : @Pours S (meter S) fill := by
  rw [PlainSource.fill_eq]
  let _ := meter S
  refine Bytewise.pours_fill ?_ ?_
  · intro s b h
    exact .read h (.refl _)
  · intro s fault h
    exact .fault h (.refl _)

end Source

namespace Sink

variable {S : Type} [Sink S]

/-- What a sink took over some calls.  A call that failed took nothing. -/
inductive Trail : S → List UInt8 → S → Prop
  | refl (s) : Trail s [] s
  | write {s b bs u} :
    ((writeU8 b : Action S Unit).run s).answer = .ok () →
      Trail ((writeU8 b : Action S Unit).run s).state bs u → Trail s (b :: bs) u
  | fault {s b f bs u} :
    ((writeU8 b : Action S Unit).run s).answer = .error f →
      Trail ((writeU8 b : Action S Unit).run s).state bs u → Trail s bs u
  | flush {s bs u} : Trail ((flush : Action S Unit).run s).state bs u → Trail s bs u
  | close {s bs u} :
    Trail ((Closeable.close : Action S Unit).run s).state bs u → Trail s bs u

theorem Trail.trans {s t u : S} {bs cs : List UInt8} (h : Trail s bs t) (h' : Trail t cs u) :
    Trail s (bs ++ cs) u := by
  induction h with
  | refl => exact h'
  | write hwrite _ ih => exact .write hwrite (ih h')
  | fault hwrite _ ih => exact .fault hwrite (ih h')
  | flush _ ih => exact .flush (ih h')
  | close _ ih => exact .close (ih h')

/-- A sink from outside is metered by its calls. -/
@[reducible] def meter (S : Type) [Sink S] : Meter S where
  Moved := Trail
  refl := .refl
  trans := .trans

theorem drains_drain [PlainSink S] : @Drains S (meter S) drain := by
  rw [PlainSink.drain_eq]
  let _ := meter S
  refine Bytewise.drains_drain ?_ ?_
  · intro s b h
    exact .write h (.refl _)
  · intro s b fault h
    exact .fault h (.refl _)

end Sink

/-! ## Any endpoint -/

section Endpoints

variable {D E S T : Type}

instance [InputDevice D] [Source S] : Meter (SourceEnd D S) where
  Moved s bs t :=
    match s with
    | .memory s =>
      match t with
      | .memory t => Moved s bs t
      | _ => False
    | .device s =>
      match t with
      | .device t => Moved s bs t
      | _ => False
    | .outside s =>
      match t with
      | .outside t => Source.Trail s bs t
      | _ => False
  refl
    | .memory s => Meter.refl s
    | .device s => Meter.refl s
    | .outside s => .refl s
  trans {s t u bs cs} h h' := by
    -- streams of different kinds have nothing to do with each other
    cases s <;> cases t <;> try exact h.elim
    all_goals cases u <;> try exact h'.elim
    all_goals first | exact Source.Trail.trans h h' | exact Meter.trans h h'

/-- What goes through the end of a tree goes through the stream of its kind. -/
theorem SourceEnd.moved_cases [InputDevice D] [Source S]
    {motive : SourceEnd D S → SourceEnd D S → Prop} {s t : SourceEnd D S} {bs : List UInt8}
    (h : Moved s bs t) (memory : ∀ s t, Moved s bs t → motive (.memory s) (.memory t))
    (device : ∀ s t, Moved s bs t → motive (.device s) (.device t))
    (outside : ∀ s t, Source.Trail s bs t → motive (.outside s) (.outside t)) : motive s t := by
  cases s <;> cases t <;> try exact h.elim
  · exact memory _ _ h
  · exact device _ _ h
  · exact outside _ _ h

instance [InputDevice D] [Source S] [PlainSource S] : MeteredSource (SourceEnd D S) where
  close
    | .memory s => MeteredSource.close s
    | .device s => MeteredSource.close s
    | .outside _ => Source.Trail.close (.refl _)
  fill
    | .memory s, r, hr => MeteredSource.fill s r hr
    | .device s, r, hr => MeteredSource.fill s r hr
    | .outside s, r, hr => Source.pours_fill s r hr

instance [OutputDevice E] [Sink T] : Meter (SinkEnd E T) where
  Moved s bs t :=
    match s with
    | .memory s =>
      match t with
      | .memory t => Moved s bs t
      | _ => False
    | .growing s =>
      match t with
      | .growing t => Moved s bs t
      | _ => False
    | .hashing s =>
      match t with
      | .hashing t => Moved s bs t
      | _ => False
    | .device s =>
      match t with
      | .device t => Moved s bs t
      | _ => False
    | .outside s =>
      match t with
      | .outside t => Sink.Trail s bs t
      | _ => False
  refl
    | .memory s => Meter.refl s
    | .growing s => Meter.refl s
    | .hashing s => Meter.refl s
    | .device s => Meter.refl s
    | .outside s => .refl s
  trans {s t u bs cs} h h' := by
    -- streams of different kinds have nothing to do with each other
    cases s <;> cases t <;> try exact h.elim
    all_goals cases u <;> try exact h'.elim
    all_goals first | exact Sink.Trail.trans h h' | exact Meter.trans h h'

instance [OutputDevice E] [Sink T] [PlainSink T] : MeteredSink (SinkEnd E T) where
  close
    | .memory s => MeteredSink.close s
    | .growing s => MeteredSink.close s
    | .hashing s => MeteredSink.close s
    | .device s => MeteredSink.close s
    | .outside _ => Sink.Trail.close (.refl _)
  flush
    | .memory s => MeteredSink.flush s
    | .growing s => MeteredSink.flush s
    | .hashing s => MeteredSink.flush s
    | .device s => MeteredSink.flush s
    | .outside _ => Sink.Trail.flush (.refl _)
  drain
    | .memory s, r, hr => MeteredSink.drain s r hr
    | .growing s, r, hr => MeteredSink.drain s r hr
    | .hashing s, r, hr => MeteredSink.drain s r hr
    | .device s, r, hr => MeteredSink.drain s r hr
    | .outside s, r, hr => Sink.drains_drain s r hr

variable [Meter S] [Meter T]

instance : Meter (S ⊕ T) where
  Moved s bs t :=
    match s with
    | .inl s =>
      match t with
      | .inl t => Moved s bs t
      | _ => False
    | .inr s =>
      match t with
      | .inr t => Moved s bs t
      | _ => False
  refl
    | .inl s => Meter.refl s
    | .inr s => Meter.refl s
  trans {s t u bs cs} h h' := by
    -- streams of different kinds have nothing to do with each other
    cases s <;> cases t <;> try exact h.elim
    all_goals cases u <;> try exact h'.elim
    all_goals exact Meter.trans h h'

instance [Sink S] [Sink T] [MeteredSink S] [MeteredSink T] : MeteredSink (S ⊕ T) where
  close
    | .inl s => MeteredSink.close s
    | .inr s => MeteredSink.close s
  flush
    | .inl s => MeteredSink.flush s
    | .inr s => MeteredSink.flush s
  drain
    | .inl s, r, hr => MeteredSink.drain s r hr
    | .inr s, r, hr => MeteredSink.drain s r hr

end Endpoints

end ByteFlow
