import ByteFlow.Proofs.Durability.Device
import ByteFlow.Proofs.Refusal
import ByteFlow.Proofs.Stepwise.Sink.Device

/-!
# Two bulk writes to a device

A sink over a device can be given many bytes in two ways: in a region that is drained, or all at
once.  Either way the device is offered what is left until nothing is left, or it takes nothing, or
it fails, and it cannot tell one way from the other.  They differ in what they say to a device that
stops early.  A drain leaves the rest in the region and calls this a success, and a bulk write has
no place to leave it.

## Main definitions

* `Stop`, `Served` — what a device takes of some bytes, and why it is offered them no more.
* `Served.exists_stop` — every device comes to a stop.
* `Served.ends_writeLoop` — every loop of writes comes to the stop of the device.
* `Overheard E` — a device with a list of the calls that it got.
* `bulk_writes_agree` — drains and bulk writes make the same calls, and answer alike.
-/

namespace ByteFlow

open ByteFlow.Action

variable {δ E : Type}

/-! ## What a device takes of some bytes -/

namespace OutputDevice

/-- Why a device is offered nothing any more. -/
inductive Stop where
  /-- Nothing is left. -/
  | done
  /-- It took nothing. -/
  | refused
  | failed (e : IoError)

/-- What a loop answers to that, given what it makes of a refusal and of an error. -/
def Stop.answer (ended : Except Fault Unit) (stopped : IoError → Except Fault Unit) :
    Stop → Except Fault Unit
  | done => .ok ()
  | refused => ended
  | failed e => stopped e

/-- What a drain answers: what is left is in the region. -/
def Stop.drained : Stop → Except Fault Unit :=
  answer (.ok ()) fun e => if e.kind = .writeZero then .ok () else .error (.ofIo e)

/-- What a bulk write answers. -/
def Stop.written : Stop → Except Fault Unit :=
  answer (.error .endOfStream) fun e => .error (.ofIo e)

/-- A bulk write fails as the drain does. -/
theorem Stop.written_of_drained {stop : Stop} {fault : Fault} (h : stop.drained = .error fault) :
    stop.written = .error fault := by
  cases stop with
  | done => cases h
  | refused => cases h
  | failed e =>
    rw [drained, answer] at h
    split at h
    · cases h
    · exact h

/-- Otherwise it succeeds unless the device has stopped early, which is the end of the stream. -/
theorem Stop.written_of_drained_ok {stop : Stop} (h : stop.drained = .ok ()) :
    stop = .done ∧ stop.written = .ok () ∨ stop ≠ .done ∧ stop.written = .error .endOfStream := by
  cases stop with
  | done => exact .inl ⟨rfl, rfl⟩
  | refused => exact .inr ⟨nofun, rfl⟩
  | failed e =>
    rw [drained, answer] at h
    split at h
    · refine .inr ⟨nofun, congrArg Except.error ?_⟩
      rw [Fault.ofIo, ‹e.kind = .writeZero›]
    · cases h

/-- A drain does not report the end of the stream, unless the device fails as if it were read. -/
theorem Stop.drained_ne_endOfStream {stop : Stop}
    (h : ∀ e, stop = .failed e → e.kind ≠ .unexpectedEof) :
    stop.drained ≠ .error .endOfStream := by
  intro heq
  cases stop with
  | done => cases heq
  | refused => cases heq
  | failed e =>
    rw [drained, answer] at heq
    split at heq
    · cases heq
    · exact (Fault.ofIo_eq_endOfStream (Except.error.inj heq)).elim (h e rfl) ‹_›

variable [OutputDevice δ]

/-- Offered some bytes, and what is left of them again and again, the device takes those in front
and leaves the others. -/
inductive Served : δ → (taken left : List UInt8) → Stop → δ → Prop
  | done {d} : Served d [] [] .done d
  | refused {d d' left} : left ≠ [] → write (Bytes.ofList left) d = (.ok 0, d') →
    Served d [] left .refused d'
  | failed {d d' left e} : left ≠ [] → e.kind ≠ .interrupted →
    write (Bytes.ofList left) d = (.error e, d') → Served d [] left (.failed e) d'
  | again {d d' d'' taken left stop e} : taken ++ left ≠ [] → e.kind = .interrupted →
    write (Bytes.ofList (taken ++ left)) d = (.error e, d') → Served d' taken left stop d'' →
    Served d taken left stop d''
  | more {d d' d'' front taken left stop} : front ≠ [] →
    write (Bytes.ofList (front ++ (taken ++ left))) d = (.ok front.length, d') →
    Served d' taken left stop d'' → Served d (front ++ taken) left stop d''

namespace Served

variable {d d' : δ} {taken left : List UInt8} {stop : Stop}

/-- Whatever the device does, it is offered the bytes only so often. -/
theorem exists_stop (d : δ) (bs : List UInt8) :
    ∃ taken left stop d', taken ++ left = bs ∧ Served d taken left stop d' := by
  -- either some bytes are taken, or there is one interruption less to come
  induction hn : bs.length + patience d using Nat.strongRecOn generalizing d bs with
  | ind n ih =>
  by_cases hbs : bs = []
  · exact ⟨[], [], .done, d, hbs.symm, .done⟩
  rcases hwrite : write (Bytes.ofList bs) d with ⟨e | _ | k, d'⟩
  · by_cases hkind : e.kind = .interrupted
    · have hless := patience_interrupted hwrite hkind
      obtain ⟨taken, left, stop, d'', rfl, hserved⟩ := ih _ (by omega) d' bs rfl
      exact ⟨taken, left, stop, d'', rfl, .again hbs hkind hwrite hserved⟩
    · exact ⟨[], bs, .failed e, d', rfl, .failed hbs hkind hwrite⟩
  · exact ⟨[], bs, .refused, d', rfl, .refused hbs hwrite⟩
  · have hle : k + 1 ≤ bs.length := write_le hwrite
    have hpatience : patience d' ≤ patience d := by
      have hle := patience_write_le (Bytes.ofList bs) d
      rwa [hwrite] at hle
    have hless : (bs.drop (k + 1)).length + patience d' < n := by
      rw [List.length_drop]
      omega
    obtain ⟨taken, left, stop, d'', hrest, hserved⟩ := ih _ hless d' _ rfl
    have hfront : (bs.take (k + 1)).length = k + 1 := List.length_take_of_le hle
    have hall : bs.take (k + 1) ++ (taken ++ left) = bs := by
      rw [hrest, List.take_append_drop]
    refine ⟨bs.take (k + 1) ++ taken, left, stop, d'', by rw [List.append_assoc, hall],
      .more ?_ ?_ hserved⟩
    · exact List.ne_nil_of_length_eq_add_one hfront
    · rw [hall, hfront]
      exact hwrite

/-- A loop of writes from a window comes to the stop of the device, and its window has lost what the
device took. -/
theorem ends_writeLoop {ended : Except Fault Unit} {stopped : IoError → Except Fault Unit}
    {refused : Action (δ × Region) (Option Unit)}
    {onError : IoError → Action (δ × Region) (Option Unit)}
    (h : Heedful ended stopped refused onError) (hserved : Served d taken left stop d') {r : Region}
    (hr : r.WellFormed) (hwindow : r.window.list = taken ++ left)
    (Q : Except Fault Unit → δ × Region → Prop) :
    (writeLoop refused onError).Ends (d, r) Q ↔
      Q (stop.answer ended stopped) (d', r.skip taken.length) := by
  have hoffered {bs : List UInt8} {r : Region} (h : r.window.list = bs) :
      r.window = Bytes.ofList bs := Bytes.ext_list h
  have hroom {bs : List UInt8} {r : Region} (hr : r.WellFormed) (h : r.window.list = bs)
      (hbs : bs ≠ []) : r.remaining ≠ 0 := by
    rwa [Ne, hr.remaining_eq_zero, h]
  induction hserved generalizing r with
  | done =>
    rw [OutputDevice.ends_writeLoop h, if_pos (hr.remaining_eq_zero.2 hwindow)]
    exact Iff.rfl
  | refused hleft hwrite =>
    rw [List.nil_append] at hwindow
    rw [OutputDevice.ends_writeLoop h, if_neg (hroom hr hwindow hleft), hoffered hwindow, hwrite]
    exact Iff.rfl
  | failed hleft hkind hwrite =>
    rw [List.nil_append] at hwindow
    rw [OutputDevice.ends_writeLoop h, if_neg (hroom hr hwindow hleft), hoffered hwindow, hwrite]
    simp only [hkind, if_false]
    exact Iff.rfl
  | again hne hkind hwrite _ ih =>
    rw [OutputDevice.ends_writeLoop h, if_neg (hroom hr hwindow hne), hoffered hwindow, hwrite]
    simp only [hkind, if_true]
    exact ih hr hwindow
  | @more _ _ _ front taken left _ hfront hwrite _ ih =>
    have hwindow' : r.window.list = front ++ (taken ++ left) := by
      rw [hwindow, List.append_assoc]
    have hne : front ++ (taken ++ left) ≠ [] := List.append_ne_nil_of_left_ne_nil hfront _
    have hcount : front.length ≠ 0 := fun hzero => hfront (List.eq_nil_of_length_eq_zero hzero)
    have hskip : front.length ≤ r.remaining := by
      rw [← hr.length_window, hwindow', List.length_append]
      omega
    rw [OutputDevice.ends_writeLoop h, if_neg (hroom hr hwindow' hne), hoffered hwindow', hwrite]
    simp only [hcount, if_false]
    have hrest : (r.skip front.length).window.list = taken ++ left := by
      rw [Region.list_window_skip, hwindow', List.drop_left]
    have hgoes := ih (hr.skip hskip) hrest
    rw [Region.skip_skip, ← List.length_append] at hgoes
    exact hgoes

/-- The device took those bytes, over the calls that it got. -/
theorem trail (h : Served d taken left stop d') : Trail d taken d' := by
  induction h with
  | done => exact .refl _
  | refused _ hwrite =>
    have htrail := Trail.write hwrite (.refl _)
    rwa [List.take_zero] at htrail
  | failed _ _ hwrite => exact .fault hwrite (.refl _)
  | again _ _ hwrite _ ih => exact .fault hwrite ih
  | more _ hwrite _ ih =>
    have htrail := Trail.write hwrite ih
    rwa [Bytes.list_ofList, List.take_left] at htrail

/-- Bytes are left unless the device took all of them. -/
theorem left_eq_nil_iff (h : Served d taken left stop d') : left = [] ↔ stop = .done := by
  induction h with
  | done => simp
  | refused hleft _ => simpa using hleft
  | failed hleft _ _ => simpa using hleft
  | again _ _ _ _ ih => exact ih
  | more _ _ _ ih => exact ih

/-- The error that made the end is one that the device can raise. -/
theorem mayFail {I : δ → Prop} {P : IoError → Prop}
    (hI : ∀ offered d, I d → I (write offered d).2 ∧ ∀ e, (write offered d).1 = .error e → P e)
    (h : Served d taken left stop d') (hd : I d) {e : IoError} (hstop : stop = .failed e) :
    P e := by
  have hafter {offered d answer d'} (hwrite : write offered d = (answer, d')) (hd : I d) :
      I d' ∧ ∀ e, answer = .error e → P e := by
    have hone := hI offered d hd
    rwa [hwrite] at hone
  induction h with
  | done => cases hstop
  | refused _ _ => cases hstop
  | failed _ _ hwrite =>
    obtain rfl := Stop.failed.inj hstop
    exact (hafter hwrite hd).2 _ rfl
  | again _ _ hwrite _ ih => exact ih (hafter hwrite hd).1 hstop
  | more _ hwrite _ ih => exact ih (hafter hwrite hd).1 hstop

end Served

end OutputDevice

/-! ## Devices that are overheard -/

/-- A device with a list of the writes that were asked of it, and of what came of them. -/
structure Overheard (E : Type) where
  device : E
  calls : List (Bytes × Except IoError Nat) := []

namespace Overheard

/-- The bytes that were taken at a call. -/
def accepted : Bytes × Except IoError Nat → List UInt8
  | (offered, .ok n) => offered.list.take n
  | (_, .error _) => []

variable [OutputDevice E] {d d' : Overheard E} {bs : List UInt8}

instance : OutputDevice (Overheard E) where
  write offered d :=
    let (answer, device) := OutputDevice.write offered d.device
    (answer, ⟨device, d.calls ++ [(offered, answer)]⟩)
  flush d :=
    let (answer, device) := OutputDevice.flush d.device
    (answer, ⟨device, d.calls⟩)
  patience d := OutputDevice.patience d.device
  write_le h := by
    obtain ⟨htaken, rfl⟩ := Prod.mk.inj h
    exact OutputDevice.write_le (Prod.ext htaken rfl)
  patience_write_le offered d := OutputDevice.patience_write_le offered d.device
  patience_interrupted h hkind := by
    obtain ⟨htaken, rfl⟩ := Prod.mk.inj h
    exact OutputDevice.patience_interrupted (Prod.ext htaken rfl) hkind

/-- The new calls took the bytes that the device took. -/
theorem calls_of_trail (h : OutputDevice.Trail d bs d') :
    ∃ calls, d'.calls = d.calls ++ calls ∧ calls.flatMap accepted = bs := by
  induction h with
  | refl d => exact ⟨[], (List.append_nil _).symm, rfl⟩
  | @write offered d n d' _ _ hwrite _ ih =>
    obtain ⟨hanswer, rfl⟩ := Prod.mk.inj hwrite
    obtain ⟨calls, hcalls, rfl⟩ := ih
    refine ⟨(offered, .ok n) :: calls, ?_, rfl⟩
    rw [hcalls, hanswer, List.append_assoc]
    rfl
  | @fault offered d e d' _ _ hwrite _ ih =>
    obtain ⟨hanswer, rfl⟩ := Prod.mk.inj hwrite
    obtain ⟨calls, hcalls, rfl⟩ := ih
    refine ⟨(offered, .error e) :: calls, ?_, rfl⟩
    rw [hcalls, hanswer, List.append_assoc]
    rfl
  | flush hflush _ ih =>
    obtain ⟨-, rfl⟩ := Prod.mk.inj hflush
    exact ih

/-- The device under it took the same bytes. -/
theorem trail_device (h : OutputDevice.Trail d bs d') :
    OutputDevice.Trail d.device bs d'.device := by
  induction h with
  | refl d => exact .refl _
  | write hwrite _ ih =>
    obtain ⟨hanswer, rfl⟩ := Prod.mk.inj hwrite
    exact .write (Prod.ext hanswer rfl) ih
  | fault hwrite _ ih =>
    obtain ⟨hanswer, rfl⟩ := Prod.mk.inj hwrite
    exact .fault (Prod.ext hanswer rfl) ih
  | flush hflush _ ih =>
    obtain ⟨hanswer, rfl⟩ := Prod.mk.inj hflush
    exact .flush (Prod.ext hanswer rfl) ih

end Overheard

/-! ## Drains and bulk writes -/

namespace DeviceSink

open OutputDevice

variable [OutputDevice δ] {d d' : δ} {taken left : List UInt8} {stop : Stop} {r : Region}

theorem ends_drain_of_served (h : Served d taken left stop d') (hr : r.WellFormed)
    (hwindow : r.window.list = taken ++ left)
    (Q : Except Fault Unit → DeviceSink δ × Region → Prop) :
    (Sink.drain : Action (DeviceSink δ × Region) Unit).Ends (⟨d, false⟩, r) Q ↔
      Q stop.drained (⟨d', false⟩, r.skip taken.length) :=
  h.ends_writeLoop heedful_writeSome hr hwindow fun answer p => Q answer (⟨p.1, false⟩, p.2)

theorem ends_writeBytes_of_served (h : Served d taken left stop d') {bytes : Bytes}
    (hbytes : bytes.list = taken ++ left) (Q : Except Fault Unit → DeviceSink δ → Prop) :
    (Sink.writeBytes bytes : Action (DeviceSink δ) Unit).Ends ⟨d, false⟩ Q ↔
      Q stop.written ⟨d', false⟩ := by
  refine (ends_writeBytes bytes d Q).trans ?_
  rw [ends_bind, ends_alongside, writeAll,
    h.ends_writeLoop heedful_writeAll (Region.wellFormed_wrapReadOnly bytes)
      ((Region.list_window_wrapReadOnly bytes).trans hbytes)]
  cases stop <;> exact Iff.rfl

end DeviceSink

/-- What a drain of a region, and a bulk write of the bytes in its window, have in common if both
start from the same sink.  The drain has left `drainedSink` and the region `rest`. -/
structure BulkAgreement (s : DeviceSink (Overheard ScriptedOutput)) (r : Region)
    (drained : Except Fault Unit) (drainedSink : DeviceSink (Overheard ScriptedOutput))
    (rest : Region) (written : Except Fault Unit)
    (writtenSink : DeviceSink (Overheard ScriptedOutput)) : Prop where
  /-- The calls are the same, and so is all that they leave. -/
  sink_eq : writtenSink = drainedSink
  /-- The device took the bytes that the window has lost. -/
  accepted : ∃ calls, drainedSink.device.calls = s.device.calls ++ calls ∧
    r.window.list = calls.flatMap Overheard.accepted ++ rest.window.list ∧
    rest = r.skip (calls.flatMap Overheard.accepted).length ∧
    drainedSink.device.device.flushed.list ++ drainedSink.device.device.pending.list =
      s.device.device.flushed.list ++ s.device.device.pending.list ++
        calls.flatMap Overheard.accepted
  ok_iff : written = .ok () ↔ drained = .ok () ∧ rest.remaining = 0
  endOfStream_iff : written = .error .endOfStream ↔ drained = .ok () ∧ rest.remaining ≠ 0
  error_of_error : ∀ fault, drained = .error fault → written = .error fault

/-- No error in the script is one that only a read has. -/
def ScriptedOutput.NoEofs (d : ScriptedOutput) : Prop :=
  ∀ e, .fault e ∈ d.script → e.kind ≠ .unexpectedEof

theorem ScriptedOutput.write_noEofs (offered : Bytes) {d : ScriptedOutput} (hd : d.NoEofs) :
    (write offered d).2.NoEofs ∧ ∀ e, (write offered d).1 = .error e → e.kind ≠ .unexpectedEof := by
  rcases d with ⟨capacity, _ | ⟨most | e, rest⟩, flushScript, pending, flushed⟩
  · exact ⟨hd, nofun⟩
  · exact ⟨fun e he => hd e (List.mem_cons_of_mem _ he), nofun⟩
  · refine ⟨fun e he => hd e (List.mem_cons_of_mem _ he), fun e' he' => ?_⟩
    obtain rfl := Except.error.inj he'
    exact hd e List.mem_cons_self

/-- What the device took and why it stopped say how both of them end. -/
theorem BulkAgreement.of_served {d d' : Overheard ScriptedOutput} {taken left : List UInt8}
    {stop : OutputDevice.Stop} {r : Region} (h : OutputDevice.Served d taken left stop d')
    (hr : r.WellFormed) (hwindow : r.window.list = taken ++ left) (hd : d.device.NoEofs) :
    BulkAgreement ⟨d, false⟩ r stop.drained ⟨d', false⟩ (r.skip taken.length) stop.written
      ⟨d', false⟩ := by
  obtain ⟨calls, hcalls, rfl⟩ := Overheard.calls_of_trail h.trail
  have hrest : (r.skip (calls.flatMap Overheard.accepted).length).window.list = left := by
    rw [Region.list_window_skip, hwindow, List.drop_left]
  have hempty : (r.skip (calls.flatMap Overheard.accepted).length).remaining = 0 ↔
      stop = .done := by
    have hle : (calls.flatMap Overheard.accepted).length ≤ r.remaining := by
      rw [← hr.length_window, hwindow, List.length_append]
      exact Nat.le_add_right ..
    rw [← h.left_eq_nil_iff, (hr.skip hle).remaining_eq_zero, hrest]
  have hnever : stop.drained ≠ .error .endOfStream :=
    OutputDevice.Stop.drained_ne_endOfStream fun e he =>
      h.mayFail (I := fun d => d.device.NoEofs)
        (fun offered _ hd => ScriptedOutput.write_noEofs offered hd) hd he
  refine ⟨rfl, ⟨calls, hcalls, by rw [hrest, hwindow], rfl,
    HoldingDevice.accounted (Overheard.trail_device h.trail)⟩, ?_, ?_,
    fun fault => OutputDevice.Stop.written_of_drained⟩
  · rw [hempty]
    cases hdrained : stop.drained with
    | ok _ =>
      obtain ⟨rfl, hwritten⟩ | ⟨hstop, hwritten⟩ := OutputDevice.Stop.written_of_drained_ok hdrained
      · simp [hwritten]
      · simp [hwritten, hstop]
    | error fault => simp [OutputDevice.Stop.written_of_drained hdrained]
  · rw [Ne, hempty]
    cases hdrained : stop.drained with
    | ok _ =>
      obtain ⟨rfl, hwritten⟩ | ⟨hstop, hwritten⟩ := OutputDevice.Stop.written_of_drained_ok hdrained
      · simp [hwritten]
      · simp [hwritten, hstop]
    | error fault =>
      have hfault : fault ≠ .endOfStream := fun heq => hnever (heq ▸ hdrained)
      simp [OutputDevice.Stop.written_of_drained hdrained, hfault]

/-- Whatever the script of a device says, and whether the sink over it is closed: a drain of a
region and a bulk write of the bytes in its window get to the same state by the same calls, and the
window has lost the bytes that the device took.  The bulk write succeeds if the drain does and
leaves nothing, it reports the end of the stream if the drain succeeds and leaves something, and it
fails as the drain fails. -/
theorem bulk_writes_agree (s : DeviceSink (Overheard ScriptedOutput)) {r : Region}
    (hr : r.WellFormed) (hscript : s.device.device.NoEofs) :
    (Sink.drain : Action (DeviceSink (Overheard ScriptedOutput) × Region) Unit).Ends (s, r)
      fun drained p =>
        (Sink.writeBytes r.window : Action (DeviceSink (Overheard ScriptedOutput)) Unit).Ends s
          fun written t => BulkAgreement s r drained p.1 p.2 written t := by
  rcases s with ⟨d, _ | _⟩
  case true =>
    change BulkAgreement ⟨d, true⟩ r (.error .closed) ⟨d, true⟩ r (.error .closed) ⟨d, true⟩
    refine ⟨rfl, ⟨[], (List.append_nil _).symm, rfl, rfl, (List.append_nil _).symm⟩, ?_, ?_,
      fun _ => id⟩
    · simp
    · simp
  case false =>
    obtain ⟨taken, left, stop, d', hwindow, h⟩ := OutputDevice.Served.exists_stop d r.window.list
    rw [DeviceSink.ends_drain_of_served h hr hwindow.symm,
      DeviceSink.ends_writeBytes_of_served h hwindow.symm]
    exact .of_served h hr hwindow.symm hscript

/-- A device takes two bytes, is interrupted, takes another one and refuses the rest as an error.
The drain leaves two bytes and succeeds, and the bulk write reports the end of the stream. -/
theorem bulk_writes_agree_of_short_writes :
    let script := [.limit 2, .fault ⟨.interrupted, "signal"⟩, .limit 1, .fault ⟨.writeZero, "full"⟩]
    let s : DeviceSink (Overheard ScriptedOutput) :=
      { device := { device := ⟨none, script, [], ByteArray.empty, ByteArray.empty⟩ } }
    let r := Region.wrapReadOnly (Bytes.ofList [1, 2, 3, 4, 5])
    let drain : Action (DeviceSink (Overheard ScriptedOutput) × Region) Unit := Sink.drain
    let write : Action (DeviceSink (Overheard ScriptedOutput)) Unit := Sink.writeBytes r.window
    r.WellFormed ∧ s.device.device.NoEofs ∧
      (drain.Ends (s, r) fun drained p =>
        write.Ends s fun written t => BulkAgreement s r drained p.1 p.2 written t) ∧
      (drain.run (s, r)).answer = .ok () ∧ (write.run s).answer = .error .endOfStream ∧
      (write.run s).state.device.calls.length = 4 ∧
      (write.run s).state.device.calls.flatMap Overheard.accepted = [1, 2, 3] := by
  intro script s r drain write
  have hr : r.WellFormed := Region.wellFormed_wrapReadOnly _
  have hscript : s.device.device.NoEofs := by
    have hkinds : ∀ entry ∈ script, ∀ e, entry = .fault e → e.kind ≠ .unexpectedEof := by
      simp [script]
    exact fun e he => hkinds _ he e rfl
  exact ⟨hr, hscript, bulk_writes_agree s hr hscript, by decide +kernel, by decide +kernel,
    by decide +kernel, by decide +kernel⟩

end ByteFlow
