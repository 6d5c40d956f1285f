import ByteFlow.Proofs.Closing.Data

/-!
# Streams that add nothing but a trace

A relay does what the stream does that it stands for.  A traced stream answers the same, hands
back the same and has the same effects, and the one thing that it adds are the events under its
label.  This is plain for the single operations, which both of them hand on.  The other ones are
made from these once more, on top of the wrapper, and whether events are dropped before or after
that makes no difference.

## Main definitions

* `Action.sift p x` — the operation with only some of the events that it traces.
* `Source.sifted`, `Sink.sifted` — a stream whose single operations are sifted.
* `SourceRequest`, `SinkRequest` — all that one can ask of a source or of a sink.
* `transparent` — every run of requests is the same with and without the wrapper.
-/

namespace ByteFlow

open ByteFlow.Action

variable {κ σ τ ρ α β : Type} {p : Event → Bool}

/-! ## Dropping events -/

namespace Action

/-- The operation with only some of the events that it traces. -/
def sift (p : Event → Bool) (x : Action σ α) : Action σ α := .of fun s =>
  ⟨(x.run s).answer, (x.run s).state, (x.run s).events.filter p⟩

@[simp] theorem sift_true (x : Action σ α) : sift (fun _ => true) x = x := by
  ext s : 1
  have hevents : (x.run s).events.filter (fun _ => true) = (x.run s).events :=
    Array.filter_eq_self.2 fun _ _ => rfl
  simp only [sift, hevents]

@[simp] theorem sift_pure (a : α) : sift p (pure a : Action σ α) = pure a := by
  ext s : 1
  simp [sift]

@[simp] theorem sift_fail (fault : Fault) : sift p (fail fault : Action σ α) = fail fault := by
  ext s : 1
  simp [sift]

@[simp] theorem sift_gets (f : σ → α) : sift p (gets f) = gets f := by
  ext s : 1
  simp [sift, gets]

@[simp] theorem sift_bind (x : Action σ α) (f : α → Action σ β) :
    sift p (x >>= f) = sift p x >>= fun a => sift p (f a) := by
  ext s : 1
  rcases hx : x.run s with ⟨fault | a, t, log⟩
  · simp [sift, run_bind, hx]
  · simp [sift, Outcome.after, run_bind, hx]

@[simp] theorem sift_map (f : α → β) (x : Action σ α) : sift p (f <$> x) = f <$> sift p x := by
  simp [← bind_pure_comp]

@[simp] theorem sift_attempt (x : Action σ α) : sift p (attempt x) = attempt (sift p x) := rfl

@[simp] theorem sift_alongside (t : τ) (x : Action (σ × τ) α) :
    sift p (alongside t x) = alongside t (sift p x) := by
  ext s : 1
  rcases hx : x.run (s, t) with ⟨fault | a, ⟨s', t'⟩, log⟩
  · simp [sift, alongside, hx]
  · simp [sift, alongside, hx]

@[simp] theorem sift_repeatUntil (n : Nat) (body : Action σ (Option α)) (otherwise : Action σ α) :
    sift p (repeatUntil n body otherwise) = repeatUntil n (sift p body) (sift p otherwise) := by
  induction n with
  | zero => simp
  | succ n ih =>
    rw [repeatUntil_succ, repeatUntil_succ, sift_bind]
    congr 1
    funext answer
    cases answer with
    | none => exact ih
    | some a => exact sift_pure a

@[simp] theorem sift_forEach (entries : List β) (body : β → Action σ Unit) :
    sift p (forEach entries body) = forEach entries fun b => sift p (body b) := by
  induction entries with
  | nil => exact sift_pure ()
  | cons b rest ih => rw [forEach_cons, forEach_cons, sift_bind, ih]

theorem sift_ite (c : Prop) [Decidable c] (x y : Action σ α) :
    sift p (if c then x else y) = if c then sift p x else sift p y :=
  apply_ite ..

@[simp] theorem sift_take (next : Action σ UInt8) (n : Nat) :
    sift p (Bytewise.take next n) = Bytewise.take (sift p next) n := by
  induction n with
  | zero => exact sift_pure []
  | succ n ih => simp [Bytewise.take, ih]

@[simp] theorem sift_mapM (f : κ → Action σ α) (entries : List κ) :
    sift p (entries.mapM f) = entries.mapM fun k => sift p (f k) := by
  induction entries with
  | nil => simp
  | cons k rest ih => simp [ih]

end Action

/-! ## Sifted streams -/

/-- The source whose single operations trace only some of the events. -/
@[reducible] def Source.sifted (p : Event → Bool) (source : Source σ) : Source σ where
  close := sift p source.close
  readU8 := sift p source.readU8
  preference := source.preference
  bound := source.bound
  readBytes := sift p source.readBytes
  readUnits n := sift p (source.readUnits n)
  fill := sift p source.fill

/-- The sink whose single operations trace only some of the events. -/
@[reducible] def Sink.sifted (p : Event → Bool) (sink : Sink σ) : Sink σ where
  close := sift p sink.close
  writeU8 v := sift p (sink.writeU8 v)
  preference := sink.preference
  bound := sink.bound
  flush := sift p sink.flush
  writeBytes bytes := sift p (sink.writeBytes bytes)
  writeUnits units := sift p (sink.writeUnits units)
  drain := sift p sink.drain

namespace Source

variable [source : Source σ]

theorem sift_scalar (k : Scalar) :
    sift p (k.read : Action σ k.Val) = @Scalar.read σ (source.sifted p) k := by
  rw [k.read_eq, @Scalar.read_eq σ (source.sifted p) k, sift_map, sift_take]
  rfl

theorem sift_readUnitsInSteps (total : Nat) :
    sift p (readUnitsInSteps total : Action (σ × Array UInt16) Unit) =
      @readUnitsInSteps σ (source.sifted p) total := by
  simp only [readUnitsInSteps, sift_repeatUntil, sift_bind, sift_gets, sift_ite, sift_pure]
  rfl

theorem sift_readUtf16 :
    sift p (readUtf16 : Action σ (Array UInt16)) = @readUtf16 σ (source.sifted p) := by
  have hlength : sift p (readI32 : Action σ Int32) = @readI32 σ (source.sifted p) :=
    sift_scalar .i32
  simp only [readUtf16, sift_bind, hlength, sift_ite, sift_fail, sift_alongside,
    sift_readUnitsInSteps, sift_pure]

theorem sift_readString :
    sift p (readString : Action σ String) = @readString σ (source.sifted p) := by
  simp only [readString, sift_bind, sift_readUtf16]
  congr 1
  funext units
  cases Text.Utf16.decode units.toList with
  | none => exact sift_fail _
  | some text => exact sift_pure text

end Source

theorem Kind.sift_read [source : Source σ] (kind : Kind) :
    sift p (kind.read : Action σ Value) = @Kind.read σ (source.sifted p) kind := by
  cases kind with
  | scalar k => simp only [Kind.read, sift_bind, Source.sift_scalar, sift_pure]
  | bytes n =>
    simp only [Kind.read, sift_bind, sift_alongside, sift_pure]
    rfl
  | units n =>
    simp only [Kind.read, sift_bind, sift_alongside, sift_pure]
    rfl
  | sequence => simp only [Kind.read, sift_bind, Source.sift_readUtf16, sift_pure]
  | text => simp only [Kind.read, sift_bind, Source.sift_readString, sift_pure]

/-- It makes no difference whether events are dropped from a data operation or from the single
operations that it is made of. -/
theorem Fetch.sift_perform [source : Source σ] (op : Fetch) :
    sift p (op.perform : Action σ Fetched) = @Fetch.perform σ (source.sifted p) op := by
  cases op with
  | value kind => simp only [Fetch.perform, sift_bind, sift_attempt, Kind.sift_read, sift_pure]
  | bytes region =>
    simp only [Fetch.perform, sift_bind, sift_alongside, sift_attempt, sift_pure]
    rfl
  | units n inHand =>
    simp only [Fetch.perform, sift_bind, sift_alongside, sift_attempt, sift_pure]
    rfl
  | fill region =>
    simp only [Fetch.perform, sift_bind, sift_alongside, sift_attempt, sift_pure]
    rfl

theorem Sink.sift_writeUtf16 [sink : Sink σ] (us : Array UInt16) :
    sift p (writeUtf16 us : Action σ Unit) = @writeUtf16 σ (sink.sifted p) us := by
  simp only [writeUtf16, writeNat, Bytewise.writeList, sift_ite, sift_fail, sift_bind, sift_forEach]
  rfl

theorem Value.sift_write [sink : Sink σ] (v : Value) :
    sift p (v.write : Action σ Unit) = @Value.write σ (sink.sifted p) v := by
  cases v with
  | scalar k v =>
    have hsifted := @Scalar.write_eq σ (sink.sifted p) k v
    rw [Value.write, k.write_eq]
    exact (sift_forEach _ _).trans hsifted.symm
  | bytes data => rfl
  | units us => rfl
  | sequence us => exact Sink.sift_writeUtf16 us
  | text s => exact Sink.sift_writeUtf16 _

theorem Submit.sift_perform [sink : Sink σ] (op : Submit) :
    sift p (op.perform : Action σ Submitted) = @Submit.perform σ (sink.sifted p) op := by
  cases op with
  | value v => simp only [Submit.perform, sift_bind, sift_attempt, Value.sift_write, sift_pure]
  | drain region =>
    simp only [Submit.perform, sift_bind, sift_alongside, sift_attempt, sift_pure]
    rfl
  | flush =>
    simp only [Submit.perform, sift_bind, sift_attempt, sift_pure]
    rfl

/-! ## Requests -/

/-- All that one can ask of a source. -/
inductive SourceRequest where
  | data (op : Fetch)
  | close
  | preference
  | bound

/-- What a source replies, with all that it hands back. -/
inductive SourceReply where
  | data (fetched : Fetched)
  | close (answer : Except Fault Unit)
  | preference (preference : Preference)
  | bound (bound : Option Nat)

/-- All that one can ask of a sink. -/
inductive SinkRequest where
  | data (op : Submit)
  | close
  | preference
  | bound

/-- What a sink replies, with all that it hands back. -/
inductive SinkReply where
  | data (submitted : Submitted)
  | close (answer : Except Fault Unit)
  | preference (preference : Preference)
  | bound (bound : Option Nat)

/-- Ask a source. -/
def SourceRequest.perform [Source σ] : SourceRequest → Action σ SourceReply
  | data op => .data <$> op.perform
  | close => .close <$> attempt Closeable.close
  | preference => .preference <$> gets Source.preference
  | bound => .bound <$> gets Source.bound

/-- Ask a sink. -/
def SinkRequest.perform [Sink σ] : SinkRequest → Action σ SinkReply
  | data op => .data <$> op.perform
  | close => .close <$> attempt Closeable.close
  | preference => .preference <$> gets Sink.preference
  | bound => .bound <$> gets Sink.bound

theorem SourceRequest.sift_perform [source : Source σ] (request : SourceRequest) :
    sift p (request.perform : Action σ SourceReply) =
      @SourceRequest.perform σ (source.sifted p) request := by
  cases request with
  | data op => simp only [perform, sift_map, Fetch.sift_perform]
  | close => exact sift_map _ _
  | preference => exact (sift_map _ _).trans (congrArg _ (sift_gets _))
  | bound => exact (sift_map _ _).trans (congrArg _ (sift_gets _))

theorem SinkRequest.sift_perform [sink : Sink σ] (request : SinkRequest) :
    sift p (request.perform : Action σ SinkReply) =
      @SinkRequest.perform σ (sink.sifted p) request := by
  cases request with
  | data op => simp only [perform, sift_map, Submit.sift_perform]
  | close => exact sift_map _ _
  | preference => exact (sift_map _ _).trans (congrArg _ (sift_gets _))
  | bound => exact (sift_map _ _).trans (congrArg _ (sift_gets _))

/-! ## Streams that reply the same -/

section Same

variable {R : σ → τ → Prop}

theorem Action.Alike.mapM {f : κ → Action σ α} {g : κ → Action τ α}
    (h : ∀ k, Alike R (f k) (g k)) (entries : List κ) :
    Alike R (entries.mapM f) (entries.mapM g) := by
  induction entries with
  | nil =>
    rw [List.mapM_nil, List.mapM_nil]
    exact .pure []
  | cons k rest ih =>
    rw [List.mapM_cons, List.mapM_cons]
    exact (h k).bind fun a => ih.bind fun others => .pure (a :: others)

/-- Sources that do the same at single operations, are closed the same way and say the same of
themselves reply the same. -/
theorem SourceRequest.alike [Source σ] [Source τ] (h : Source.Twins R)
    (hclose : Alike R (Closeable.close : Action σ Unit) (Closeable.close : Action τ Unit))
    (hpreference : ∀ s t, R s t → Source.preference s = Source.preference t)
    (hbound : ∀ s t, R s t → Source.bound s = Source.bound t) (request : SourceRequest) :
    Alike R (request.perform : Action σ SourceReply) (request.perform : Action τ SourceReply) := by
  cases request with
  | data op => exact (h.perform op).map _
  | close => exact hclose.attempt.map _
  | preference => exact (Alike.gets hpreference).map _
  | bound => exact (Alike.gets hbound).map _

theorem SinkRequest.alike [Sink σ] [Sink τ] (h : Sink.Twins R)
    (hclose : Alike R (Closeable.close : Action σ Unit) (Closeable.close : Action τ Unit))
    (hpreference : ∀ s t, R s t → Sink.preference s = Sink.preference t)
    (hbound : ∀ s t, R s t → Sink.bound s = Sink.bound t) (request : SinkRequest) :
    Alike R (request.perform : Action σ SinkReply) (request.perform : Action τ SinkReply) := by
  cases request with
  | data op => exact (h.perform op).map _
  | close => exact hclose.attempt.map _
  | preference => exact (Alike.gets hpreference).map _
  | bound => exact (Alike.gets hbound).map _

end Same

/-! ### Relays -/

namespace Relay

/-- The relay stands for the stream. -/
def For (s : σ) (t : Relay σ) : Prop := t = ⟨s⟩

theorem alike_pass (x : Action σ α) : Alike For x (pass x) := by
  rintro s _ rfl
  exact ⟨rfl, rfl, rfl⟩

theorem alike_passWith (x : Action (σ × ρ) α) : Alike (Beside For) x (passWith x) := by
  rintro ⟨s, a⟩ ⟨_, _⟩ ⟨rfl, rfl⟩
  exact ⟨rfl, rfl, rfl, rfl⟩

theorem source_alike [Source σ] (request : SourceRequest) :
    Alike For (request.perform : Action σ SourceReply) request.perform := by
  refine SourceRequest.alike ⟨alike_pass _, alike_passWith _, fun _ => alike_passWith _,
    alike_passWith _⟩ (alike_pass _) ?_ ?_ request
  · rintro s _ rfl
    rfl
  · rintro s _ rfl
    rfl

theorem sink_alike [Sink σ] (request : SinkRequest) :
    Alike For (request.perform : Action σ SinkReply) request.perform := by
  refine SinkRequest.alike ⟨fun _ => alike_pass _, alike_pass _, fun _ => alike_pass _,
    fun _ => alike_pass _, alike_passWith _⟩ (alike_pass _) ?_ ?_ request
  · rintro s _ rfl
    rfl
  · rintro s _ rfl
    rfl

end Relay

/-! ### Traced streams -/

/-- Whether the event is there also without the traces under a label. -/
def Event.unlabelled (label : String) : Event → Bool
  | .called other _ => other != label
  | _ => true

namespace Traced

/-- The traced stream stands over the stream, under the label. -/
def Over (label : String) (s : σ) (t : Traced σ) : Prop := t = ⟨s, label⟩

theorem filter_push_called (label : String) (call : Call) (log : Array Event) :
    (log.push (.called label call)).filter (Event.unlabelled label) =
      log.filter (Event.unlabelled label) := by
  simp [Event.unlabelled]

theorem alike_observed (label : String) (call : Except Fault α → Call) (x : Action σ α) :
    Alike (Over label) (sift (Event.unlabelled label) x)
      (sift (Event.unlabelled label) (observed call x)) := by
  rintro s _ rfl
  exact ⟨rfl, (filter_push_called ..).symm, rfl⟩

theorem alike_observedWith (label : String) (before : ρ → Nat)
    (call : Nat → ρ → Except Fault α → Call) (x : Action (σ × ρ) α) :
    Alike (Beside (Over label)) (sift (Event.unlabelled label) x)
      (sift (Event.unlabelled label) (observedWith before call x)) := by
  rintro ⟨s, a⟩ ⟨_, _⟩ ⟨rfl, rfl⟩
  exact ⟨rfl, (filter_push_called ..).symm, rfl, rfl⟩

/-- Without the events under the label the single operations do the same. -/
theorem source_twins [source : Source σ] (label : String) :
    @Source.Twins σ (Traced σ) (source.sifted (Event.unlabelled label))
      (Source.sifted (Event.unlabelled label) inferInstance) (Over label) :=
  @Source.Twins.mk _ _ (_) (_) _ (alike_observed label _ _) (alike_observedWith label _ _ _)
    (fun _ => alike_observedWith label _ _ _) (alike_observedWith label _ _ _)

theorem sink_twins [sink : Sink σ] (label : String) :
    @Sink.Twins σ (Traced σ) (sink.sifted (Event.unlabelled label))
      (Sink.sifted (Event.unlabelled label) inferInstance) (Over label) :=
  @Sink.Twins.mk _ _ (_) (_) _ (fun _ => alike_observed label _ _)
    (alike_observed label _ _) (fun _ => alike_observed label _ _)
    (fun _ => alike_observed label _ _) (alike_observedWith label _ _ _)

theorem source_alike [source : Source σ] (label : String) (request : SourceRequest) :
    Alike (Over label)
      (sift (Event.unlabelled label) (request.perform : Action σ SourceReply))
      (sift (Event.unlabelled label) request.perform) := by
  rw [SourceRequest.sift_perform, SourceRequest.sift_perform]
  refine @SourceRequest.alike _ _ _ (_) (_) (source_twins label) (alike_observed label _ _) ?_ ?_
    request
  · rintro s _ rfl
    rfl
  · rintro s _ rfl
    rfl

theorem sink_alike [sink : Sink σ] (label : String) (request : SinkRequest) :
    Alike (Over label)
      (sift (Event.unlabelled label) (request.perform : Action σ SinkReply))
      (sift (Event.unlabelled label) request.perform) := by
  rw [SinkRequest.sift_perform, SinkRequest.sift_perform]
  refine @SinkRequest.alike _ _ _ (_) (_) (sink_twins label) (alike_observed label _ _) ?_ ?_
    request
  · rintro s _ rfl
    rfl
  · rintro s _ rfl
    rfl

end Traced

/-! ## Runs -/

/-- The wrapper does in a run of requests what the stream under it does: all replies are the same,
with the regions and units that are handed back, the wrapper is left over what the stream becomes,
and those events are the same that `p` lets through. -/
structure Transparent (p : Event → Bool) (wrap : σ → τ) (direct : Action σ α) (through : Action τ α)
    (s : σ) : Prop where
  answer_eq : (through.run (wrap s)).answer = (direct.run s).answer
  state_eq : (through.run (wrap s)).state = wrap (direct.run s).state
  events_eq : (through.run (wrap s)).events.filter p = (direct.run s).events.filter p

theorem Transparent.of_alike {wrap : σ → τ} {direct : Action σ α} {through : Action τ α} {s : σ}
    (h : Alike (fun s t => t = wrap s) (sift p direct) (sift p through)) :
    Transparent p wrap direct through s := by
  obtain ⟨hanswer, hevents, hstate⟩ := h s (wrap s) rfl
  exact ⟨hanswer.symm, hstate, hevents.symm⟩

/-- Whatever a source or a sink is asked for and however often, in the middle of values and after
failures: asking a traced stream over it, or a relay that stands for it, gets the same replies and
does the same to it.  The relay traces the same, too, and so does the traced stream, apart from the
events under its label. -/
theorem transparent [Source σ] [Sink τ] :
    (∀ (label : String) (s : σ) (requests : List SourceRequest),
      Transparent (Event.unlabelled label) (Source.traced label)
        (requests.mapM SourceRequest.perform) (requests.mapM SourceRequest.perform) s) ∧
    (∀ (s : σ) (requests : List SourceRequest),
      Transparent (fun _ => true) Relay.mk
        (requests.mapM SourceRequest.perform) (requests.mapM SourceRequest.perform) s) ∧
    (∀ (label : String) (t : τ) (requests : List SinkRequest),
      Transparent (Event.unlabelled label) (Sink.traced label)
        (requests.mapM SinkRequest.perform) (requests.mapM SinkRequest.perform) t) ∧
    ∀ (t : τ) (requests : List SinkRequest),
      Transparent (fun _ => true) Relay.mk
        (requests.mapM SinkRequest.perform) (requests.mapM SinkRequest.perform) t := by
  refine ⟨fun label s requests => .of_alike ?tracedSource, fun s requests => .of_alike ?relaySource,
    fun label t requests => .of_alike ?tracedSink, fun t requests => .of_alike ?relaySink⟩
  case tracedSource =>
    rw [sift_mapM, sift_mapM]
    exact Alike.mapM (Traced.source_alike label) requests
  case relaySource =>
    rw [sift_true, sift_true]
    exact Alike.mapM Relay.source_alike requests
  case tracedSink =>
    rw [sift_mapM, sift_mapM]
    exact Alike.mapM (Traced.sink_alike label) requests
  case relaySink =>
    rw [sift_true, sift_true]
    exact Alike.mapM Relay.sink_alike requests

end ByteFlow
