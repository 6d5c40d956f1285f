import ByteFlow.Proofs.Bounds.Endpoint
import ByteFlow.Proofs.Interruption.Loop
import ByteFlow.Proofs.Transparency

/-!
# Devices that are interrupted

The source or sink over a device asks again when it was interrupted, so it comes to the same as over
a device that does the same without the interruptions.  All that has to be known of the two devices
is that one call at the first is an interruption, or else one call at the second.

## Main definitions

* `InputDevice.stops_readLoop`, `OutputDevice.stops_writeLoop` — every loop at a device ends.
* `InputDevice.commutes_readLoop`, `OutputDevice.commutes_writeLoop` — what the calls do not notice
  the loops do not notice.
* `DeviceSource.alike`, `DeviceSink.alike` — so all requests come to the same.
-/

namespace ByteFlow

open ByteFlow.Action

variable {δ ρ σ α : Type}

/-! ## Loops at a device end -/

namespace InputDevice

variable [InputDevice δ] {atEnd : Action (δ × Region) (Option Unit)}
  {onError : IoError → Action (δ × Region) (Option Unit)}

/-- What there is left to do: a byte a turn at least, or one interruption less. -/
def workLeft (p : δ × Region) : Nat := p.2.remaining + patience p.1

theorem run_readOnce_of_readOnly {r : Region} (hr : r.readOnly = true) (d : δ) :
    readOnce.run (d, r) = ⟨.error (.misuse .readOnlyRegion), (d, r), #[]⟩ := by
  refine run_bind_of_error ?_ _
  simp [run_onSecond, Region.requireWritable, hr, Outcome.mapState]

theorem lessens_readTurn (hend : Concludes atEnd) (herror : ∀ e, Concludes (onError e)) :
    Lessens workLeft (readTurn atEnd onError) := by
  refine lessens_deviceTurn (fun d r hroom => ?_) hend herror
  cases hreadOnly : r.readOnly with
  | true =>
    rw [Ends, run_readOnce_of_readOnly hreadOnly]
    trivial
  | false =>
    rw [ends_readOnce_of_not_readOnly d hreadOnly]
    rcases hread : read r.remaining d with ⟨e | given, d'⟩
    · intro hkind
      exact Nat.add_lt_add_left (patience_interrupted hread hkind) _
    · intro hcount
      refine turns_read_lt hread fun hnone => hcount ?_
      rw [← Bytes.length_list, hnone, List.length_nil]

/-- A loop of reads ends, whatever the device does and whatever the region is like. -/
theorem stops_readLoop (hend : Concludes atEnd) (herror : ∀ e, Concludes (onError e))
    (p : δ × Region) :
    Stops (readTurn atEnd onError) p ((readLoop atEnd onError).run p) := by
  rw [readLoop_eq, run_gets_bind]
  exact stops_repeatUntil (lessens_readTurn hend herror) (Nat.lt_succ_self _)

theorem run_readOnce {r : Region} (hr : r.readOnly = false) (d : δ) :
    readOnce.run (d, r) =
      match read r.remaining d with
      | (.ok given, d') => (do
          let count ← onSecond (Region.putSlice given)
          pure (Except.ok count)).run (d', r)
      | (.error e, d') => ⟨.ok (.error e), (d', r), #[]⟩ := by
  have hwritable : (onSecond Region.requireWritable : Action (δ × Region) Unit).run (d, r) =
      ⟨.ok (), (d, r), #[]⟩ := by
    simp [run_onSecond, Region.requireWritable, hr, Outcome.mapState]
  have hasked : (onFirst (receive r.remaining) : Action (δ × Region) _).run (d, r) =
      ⟨.ok (read r.remaining d).1, ((read r.remaining d).2, r), #[]⟩ := rfl
  rw [readOnce, run_bind_of_ok hwritable, Outcome.after_empty, run_gets_bind,
    run_bind_of_ok hasked, Outcome.after_empty]
  rcases read r.remaining d with ⟨e | given, d'⟩ <;> rfl

theorem run_readOnce_of_error {r : Region} (hr : r.readOnly = false) {d d' : δ} {e : IoError}
    (h : read r.remaining d = (.error e, d')) :
    readOnce.run (d, r) = ⟨.ok (.error e), (d', r), #[]⟩ := by
  rw [run_readOnce hr, h]

/-- Whatever comes of the call is put into the same region. -/
theorem run_readOnce_map {f : δ → δ} {d : δ} {r : Region} (hr : r.readOnly = false)
    (h : read r.remaining (f d) = Prod.map id f (read r.remaining d)) :
    readOnce.run (f d, r) = (readOnce.run (d, r)).mapState (besideAll f) := by
  rw [run_readOnce hr, run_readOnce hr, h]
  rcases read r.remaining d with ⟨e | given, d'⟩
  · rfl
  · exact run_bind_mapState (f := besideAll f) (s := (d', r)) rfl fun _ _ => rfl

/-- A loop of reads does not notice that a map makes nothing of interruptions. -/
theorem commutes_readLoop {f : δ → δ} (honce : Dismisses f (readOnce : Action (δ × Region) _))
    (hend : Concludes atEnd) (herror : ∀ e, Concludes (onError e)) :
    Commutes (besideAll f) (readLoop atEnd onError) :=
  .of_stops (stops_readLoop hend herror) (honce.deviceTurn hend herror)

end InputDevice

namespace OutputDevice

variable [OutputDevice δ] {refused : Action (δ × Region) (Option Unit)}
  {onError : IoError → Action (δ × Region) (Option Unit)}

/-- What there is left to do: a byte a turn at least, or one interruption less. -/
def workLeft (p : δ × Region) : Nat := p.2.remaining + patience p.1

theorem lessens_writeTurn (hrefused : Concludes refused) (herror : ∀ e, Concludes (onError e)) :
    Lessens workLeft (writeTurn refused onError) := by
  refine lessens_deviceTurn (fun d r hroom => ?_) hrefused herror
  rw [ends_writeOnce]
  rcases hwrite : write r.window d with ⟨e | taken, d'⟩
  · intro hkind
    exact Nat.add_lt_add_left (patience_interrupted hwrite hkind) _
  · exact turns_write_lt hwrite hroom

/-- A loop of writes ends, whatever the device does and whatever the region is like. -/
theorem stops_writeLoop (hrefused : Concludes refused) (herror : ∀ e, Concludes (onError e))
    (p : δ × Region) :
    Stops (writeTurn refused onError) p ((writeLoop refused onError).run p) := by
  rw [writeLoop_eq, run_gets_bind]
  exact stops_repeatUntil (lessens_writeTurn hrefused herror) (Nat.lt_succ_self _)

theorem run_writeOnce_of_error {r : Region} {d d' : δ} {e : IoError}
    (h : write r.window d = (.error e, d')) :
    writeOnce.run (d, r) = ⟨.ok (.error e), (d', r), #[]⟩ := by
  simp only [writeOnce, h]

theorem run_writeOnce_map {f : δ → δ} {d : δ} {r : Region}
    (h : write r.window (f d) = Prod.map id f (write r.window d)) :
    writeOnce.run (f d, r) = (writeOnce.run (d, r)).mapState (besideAll f) := by
  simp only [writeOnce, h]
  rcases write r.window d with ⟨e | taken, d'⟩ <;> rfl

/-- A loop of writes does not notice that a map makes nothing of interruptions. -/
theorem commutes_writeLoop {f : δ → δ} (honce : Dismisses f (writeOnce : Action (δ × Region) _))
    (hrefused : Concludes refused) (herror : ∀ e, Concludes (onError e)) :
    Commutes (besideAll f) (writeLoop refused onError) :=
  .of_stops (stops_writeLoop hrefused herror) (honce.deviceTurn hrefused herror)

end OutputDevice

/-! ### What an end and an error mean -/

theorem concludes_pure (a : α) : Concludes (pure (some a) : Action σ (Option α)) := .inl ⟨a, rfl⟩

theorem concludes_fail (fault : Fault) : Concludes (fail fault : Action σ (Option α)) :=
  .inr ⟨fault, rfl⟩

/-- An error of one kind is an end, and any other one a fault. -/
theorem concludes_unless (kind : IoKind) (e : IoError) :
    Concludes (if e.kind = kind then pure (some ()) else fail (.ofIo e) :
      Action σ (Option Unit)) := by
  split
  · exact concludes_pure ()
  · exact concludes_fail _

/-! ## Streams over the devices -/

section Streams

variable {f : δ → δ}

/-- The same stream over another device. -/
def DeviceSource.onDevice (f : δ → δ) (s : DeviceSource δ) : DeviceSource δ :=
  { s with device := f s.device }

/-- The same stream over another device. -/
def DeviceSink.onDevice (f : δ → δ) (s : DeviceSink δ) : DeviceSink δ :=
  { s with device := f s.device }

namespace DeviceSource

/-- The devices are the same to the map, and so are the streams over them. -/
def Same (f : δ → δ) (s t : DeviceSource δ) : Prop := s.onDevice f = t.onDevice f

theorem alike_whenOpen {x : Action (δ × ρ) α} (h : Commutes (besideAll f) x) :
    Alike (Beside (Same f)) (whenOpen x) (whenOpen x) := by
  refine Commutes.alikeBeside fun p => ?_
  obtain ⟨⟨device, _ | _⟩, rest⟩ := p
  · exact congrArg (Outcome.mapState fun p : δ × ρ => ((⟨p.1, false⟩ : DeviceSource δ), p.2))
      (h (device, rest))
  · rfl

variable [InputDevice δ]

theorem alike (h : Dismisses f (InputDevice.readOnce : Action (δ × Region) _))
    (request : SourceRequest) :
    Alike (Same f) (request.perform : Action (DeviceSource δ) SourceReply) request.perform := by
  have hall : Alike (Beside (Same f)) (whenOpen InputDevice.readAll)
      (whenOpen (InputDevice.readAll : Action (δ × Region) Unit)) :=
    alike_whenOpen (InputDevice.commutes_readLoop h (concludes_fail _) fun _ => concludes_fail _)
  have hsome : Alike (Beside (Same f)) (whenOpen InputDevice.readSome)
      (whenOpen (InputDevice.readSome : Action (δ × Region) Unit)) :=
    alike_whenOpen (InputDevice.commutes_readLoop h (concludes_pure ()) (concludes_unless _))
  have hnext : Alike (Same f) next (next : Action (DeviceSource δ) UInt8) :=
    (hall.alongside _).bind fun _ => .pure _
  have hclose : Commutes (onDevice f) (Closeable.close : Action (DeviceSource δ) Unit) :=
    fun _ => rfl
  refine SourceRequest.alike ⟨hnext, hall, fun n => hnext.readUnits n, hsome⟩ hclose.alike ?_ ?_
    request
  · exact fun _ _ _ => rfl
  · exact fun _ _ _ => rfl

end DeviceSource

namespace DeviceSink

/-- The devices are the same to the map, and so are the streams over them. -/
def Same (f : δ → δ) (s t : DeviceSink δ) : Prop := s.onDevice f = t.onDevice f

theorem alike_whenOpenWith {x : Action (δ × ρ) α} (h : Commutes (besideAll f) x) :
    Alike (Beside (Same f)) (whenOpenWith x) (whenOpenWith x) := by
  refine Commutes.alikeBeside fun p => ?_
  obtain ⟨⟨device, _ | _⟩, rest⟩ := p
  · exact congrArg (Outcome.mapState fun p : δ × ρ => ((⟨p.1, false⟩ : DeviceSink δ), p.2))
      (h (device, rest))
  · rfl

variable [OutputDevice δ]

theorem alike (h : Dismisses f (OutputDevice.writeOnce : Action (δ × Region) _))
    (hpush : Commutes f (OutputDevice.pushOut : Action δ Unit)) (request : SinkRequest) :
    Alike (Same f) (request.perform : Action (DeviceSink δ) SinkReply) request.perform := by
  have hall : Alike (Beside (Same f)) (whenOpenWith OutputDevice.writeAll)
      (whenOpenWith (OutputDevice.writeAll : Action (δ × Region) Unit)) :=
    alike_whenOpenWith
      (OutputDevice.commutes_writeLoop h (concludes_fail _) fun _ => concludes_fail _)
  have hsome : Alike (Beside (Same f)) (whenOpenWith OutputDevice.writeSome)
      (whenOpenWith (OutputDevice.writeSome : Action (δ × Region) Unit)) :=
    alike_whenOpenWith
      (OutputDevice.commutes_writeLoop h (concludes_pure ()) (concludes_unless _))
  have hwrite (bytes : Bytes) : Alike (Same f) (writeBytes bytes : Action (DeviceSink δ) Unit)
      (writeBytes bytes) := (hall.alongside _).bind fun _ => .pure ()
  have hpushed : Commutes (onDevice f) (whenOpen (OutputDevice.pushOut : Action δ Unit)) := by
    rintro ⟨device, _ | _⟩
    · exact congrArg (Outcome.mapState fun device => (⟨device, false⟩ : DeviceSink δ))
        (hpush device)
    · rfl
  have hshut : Commutes (onDevice f) (shut : Action (DeviceSink δ) Unit) := by
    rintro ⟨device, _ | _⟩
    · exact congrArg (Outcome.mapState fun device => (⟨device, true⟩ : DeviceSink δ))
        (hpush device)
    · rfl
  refine SinkRequest.alike ⟨fun _ => hwrite _, hpushed.alike, hwrite,
    fun units => .writeUnits (fun _ => hwrite _) units, hsome⟩ hshut.alike ?_ ?_ request
  · exact fun _ _ _ => rfl
  · exact fun _ _ _ => rfl

end DeviceSink

end Streams

end ByteFlow
