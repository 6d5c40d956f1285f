import ByteFlow.Proofs.Chain.Finish
import ByteFlow.Proofs.Closing.Run
import ByteFlow.Proofs.Keeping
import ByteFlow.Proofs.Meter.Leaves
import ByteFlow.Scripted.Device

/-!
# Closing again

A wrapper that hands closing on relies on the stream under it, and a chain closes its last member
after its policy may have done so.  So every stream has to remember that it was closed, also when
that has failed: from then on, closing does nothing but succeed, and no other operation makes it
forget.

A policy that keeps count of its runs, and a device that keeps count of its flushes, have the
count in their state.  If closing again leaves the state as it was, it has run neither.

## Main definitions

* `WasClosed s` — the stream was closed, whatever came of it.
* `Closeable.Settled s` — closing does nothing but succeed.
* `SettlingSource`, `SettlingSink` — streams that are settled once they were closed.
* `FlushCounted E`, `Tree.policyRuns`, `Tree.flushes` — how often policies and flushes were run.
* `Tree.settled_after_close` — every tree is settled once it was closed.
-/

namespace ByteFlow

open ByteFlow.Action

variable {D E P Q L S σ τ ρ α : Type}

/-! ## Streams that remember being closed -/

/-- Which states of a stream come after a close. -/
class Closedness (σ : Type) where
  /-- The stream was closed, whatever came of it. -/
  WasClosed : σ → Prop

export Closedness (WasClosed)

/-- Closing does nothing but succeed.  Only the traced streams on the way tell of it. -/
def Closeable.Settled [Closeable σ] (s : σ) : Prop :=
  ∃ log : Array Event, (∀ event ∈ log, ∃ label, event = .called label (.close (.ok ()))) ∧
    (Closeable.close : Action σ Unit).run s = ⟨.ok (), s, log⟩

/-- A source that is settled once it was closed. -/
class SettlingSource (σ : Type) [Source σ] [Closedness σ] : Prop where
  close : ∀ s : σ, (Closeable.close : Action σ Unit).Ends s fun _ t => WasClosed t
  keeps : Source.Keeps (WasClosed : σ → Prop)
  settled : ∀ {s : σ}, WasClosed s → Closeable.Settled s

/-- A sink that is settled once it was closed. -/
class SettlingSink (σ : Type) [Sink σ] [Closedness σ] : Prop where
  close : ∀ s : σ, (Closeable.close : Action σ Unit).Ends s fun _ t => WasClosed t
  keeps : Sink.Keeps (WasClosed : σ → Prop)
  settled : ∀ {s : σ}, WasClosed s → Closeable.Settled s

theorem Closeable.settled_of_idle [Closeable σ] {s : σ}
    (h : Idle (Closeable.close : Action σ Unit) s (.ok ())) : Settled s :=
  ⟨#[], by simp, h⟩

namespace Closing

/-- Once a stream was closed, it stays settled. -/
theorem settled_after [Closeable σ] [Closedness σ] {O : Type} {perform : O → Action σ ρ}
    (hclose : ∀ s : σ, (Closeable.close : Action σ Unit).Ends s fun _ t => WasClosed t)
    (hkeep : ∀ op, Keeps WasClosed (perform op))
    (hsettled : ∀ {s : σ}, WasClosed s → Closeable.Settled s) (s : σ)
    (before later : List (Use O)) :
    Closeable.Settled (after perform s (before ++ .close :: later)) := by
  have hlater {t : σ} (ht : WasClosed t) : WasClosed (after perform t later) := by
    induction later generalizing t with
    | nil => exact ht
    | cons use others ih =>
      cases use with
      | data op => exact ih (hkeep op t ht)
      | close => exact ih (hclose t)
  rw [after_append]
  exact hsettled (hlater (hclose (after perform s before)))

end Closing

/-! ## Endpoints -/

instance : Closedness Empty where
  WasClosed _ := True

instance : SettlingSource Empty where
  close := nofun
  keeps := ⟨nofun, nofun, nofun, fun _ => nofun, nofun⟩
  settled {s} := nomatch s

instance : SettlingSink Empty where
  close := nofun
  keeps := ⟨nofun, fun _ => nofun, nofun, fun _ => nofun, fun _ => nofun, nofun⟩
  settled {s} := nomatch s

instance : Closedness MemorySource where
  WasClosed s := s.closed = true

instance : SettlingSource MemorySource where
  close _ := rfl
  keeps := by
    refine .of_readU8 (fun _ _ => rfl) ?_ ?_ rfl fun _ => rfl
    · rintro ⟨data, position, closed⟩ (rfl : closed = true)
      rfl
    · rintro ⟨⟨data, position, closed⟩, r⟩ (rfl : closed = true)
      rfl
  settled := by
    rintro ⟨data, position, closed⟩ (rfl : closed = true)
    exact Closeable.settled_of_idle rfl

instance : Closedness MemorySink where
  WasClosed s := s.closed = true

instance : SettlingSink MemorySink where
  close _ := rfl
  keeps := by
    refine .of_writeU8 (fun _ _ => rfl) ?_ (fun _ hs => hs) ?_ (fun _ => rfl) fun _ => rfl
    · rintro v ⟨data, position, closed⟩ (rfl : closed = true)
      rfl
    · rintro ⟨⟨data, position, closed⟩, r⟩ (rfl : closed = true)
      rfl
  settled := by
    rintro ⟨data, position, closed⟩ (rfl : closed = true)
    exact Closeable.settled_of_idle rfl

instance : Closedness GrowingSink where
  WasClosed s := s.closed = true

instance : SettlingSink GrowingSink where
  close _ := rfl
  keeps := by
    have hwrite : ∀ v, Keeps (WasClosed : GrowingSink → Prop) (GrowingSink.push v) := by
      rintro v ⟨bytes, closed⟩ (rfl : closed = true)
      rfl
    refine ⟨fun _ _ => rfl, hwrite, fun _ hs => hs, ?_, Sink.keeps_writeUnits hwrite, ?_⟩
    · rintro more ⟨bytes, closed⟩ (rfl : closed = true)
      rfl
    · rintro ⟨⟨bytes, closed⟩, r⟩ (rfl : closed = true)
      rfl
  settled := by
    rintro ⟨bytes, closed⟩ (rfl : closed = true)
    exact Closeable.settled_of_idle rfl

instance : Closedness HashingSink where
  WasClosed s := s.closed = true

instance : SettlingSink HashingSink where
  close _ := rfl
  keeps := by
    have hwrite : ∀ bytes, Keeps (WasClosed : HashingSink → Prop) (HashingSink.absorb bytes) := by
      rintro v ⟨algorithm, state, count, closed⟩ (rfl : closed = true)
      rfl
    refine ⟨fun _ _ => rfl, fun v => hwrite [v], fun _ hs => hs, fun bytes => hwrite bytes.list,
      Sink.keeps_writeUnits fun v => hwrite [v], ?_⟩
    rintro ⟨⟨algorithm, state, count, closed⟩, r⟩ (rfl : closed = true)
    rfl
  settled := by
    rintro ⟨algorithm, state, count, closed⟩ (rfl : closed = true)
    exact Closeable.settled_of_idle rfl

namespace DeviceSource

theorem keeps_whenOpen (x : Action (D × ρ) α) :
    Keeps (fun p => p.1.closed = true) (whenOpen x) := by
  rintro ⟨⟨device, closed⟩, a⟩ (rfl : closed = true)
  rfl

end DeviceSource

instance : Closedness (DeviceSource D) where
  WasClosed s := s.closed = true

instance [InputDevice D] : SettlingSource (DeviceSource D) where
  close _ := rfl
  keeps := by
    have hread : Keeps (WasClosed : DeviceSource D → Prop) DeviceSource.next :=
      ((DeviceSource.keeps_whenOpen _).alongside _).bind fun _ => .pure _
    exact ⟨fun _ _ => rfl, hread, DeviceSource.keeps_whenOpen _,
      fun n => .of_alikeBeside (hread.alike.readUnits n), DeviceSource.keeps_whenOpen _⟩
  settled := by
    rintro ⟨device, closed⟩ (rfl : closed = true)
    exact Closeable.settled_of_idle rfl

namespace DeviceSink

theorem keeps_whenOpen (x : Action D α) : Keeps (fun s => s.closed = true) (whenOpen x) := by
  rintro ⟨device, closed⟩ (rfl : closed = true)
  rfl

theorem keeps_whenOpenWith (x : Action (D × ρ) α) :
    Keeps (fun p => p.1.closed = true) (whenOpenWith x) := by
  rintro ⟨⟨device, closed⟩, a⟩ (rfl : closed = true)
  rfl

end DeviceSink

instance : Closedness (DeviceSink D) where
  WasClosed s := s.closed = true

/-- The device is let go of also when the flush fails. -/
instance [OutputDevice D] : SettlingSink (DeviceSink D) where
  close := by
    rintro ⟨device, _ | _⟩
    · rfl
    · rfl
  keeps := by
    have hwrite : ∀ bytes, Keeps (WasClosed : DeviceSink D → Prop) (DeviceSink.writeBytes bytes) :=
      fun bytes => ((DeviceSink.keeps_whenOpenWith _).alongside _).bind fun _ => .pure _
    refine ⟨?_, fun v => hwrite _, DeviceSink.keeps_whenOpen _, hwrite,
      Sink.keeps_writeUnits fun v => hwrite _, DeviceSink.keeps_whenOpenWith _⟩
    rintro ⟨device, closed⟩ (rfl : closed = true)
    rfl
  settled := by
    rintro ⟨device, closed⟩ (rfl : closed = true)
    exact Closeable.settled_of_idle rfl

instance [Closedness S] : Closedness (SourceEnd D S) where
  WasClosed
    | .memory s => WasClosed s
    | .device s => WasClosed s
    | .outside s => WasClosed s

instance [Closedness S] : Closedness (SinkEnd D S) where
  WasClosed
    | .memory s => WasClosed s
    | .growing s => WasClosed s
    | .hashing s => WasClosed s
    | .device s => WasClosed s
    | .outside s => WasClosed s

namespace Closeable

/-- A stream under another name is settled as it was. -/
theorem Settled.mapState [Closeable σ] [Closeable τ] {s : σ} (hs : Settled s) {f : σ → τ}
    (h : (Closeable.close : Action τ Unit).run (f s) =
      ((Closeable.close : Action σ Unit).run s).mapState f) : Settled (f s) := by
  obtain ⟨log, hlog, hrun⟩ := hs
  exact ⟨log, hlog, by rw [h, hrun]; rfl⟩

end Closeable

instance [InputDevice D] [Source S] [Closedness S] [SettlingSource S] :
    SettlingSource (SourceEnd D S) where
  close
    | .memory s => SettlingSource.close s
    | .device s => SettlingSource.close s
    | .outside s => SettlingSource.close s
  keeps := SourceEnd.keeps_source SettlingSource.keeps SettlingSource.keeps SettlingSource.keeps
  settled {s} hs := by
    cases s with
    | memory s => exact (SettlingSource.settled (s := s) hs).mapState rfl
    | device s => exact (SettlingSource.settled (s := s) hs).mapState rfl
    | outside s => exact (SettlingSource.settled (s := s) hs).mapState rfl

instance [OutputDevice D] [Sink S] [Closedness S] [SettlingSink S] :
    SettlingSink (SinkEnd D S) where
  close
    | .memory s => SettlingSink.close s
    | .growing s => SettlingSink.close s
    | .hashing s => SettlingSink.close s
    | .device s => SettlingSink.close s
    | .outside s => SettlingSink.close s
  keeps := SinkEnd.keeps_sink SettlingSink.keeps SettlingSink.keeps SettlingSink.keeps
    SettlingSink.keeps SettlingSink.keeps
  settled {s} hs := by
    cases s with
    | memory s => exact (SettlingSink.settled (s := s) hs).mapState rfl
    | growing s => exact (SettlingSink.settled (s := s) hs).mapState rfl
    | hashing s => exact (SettlingSink.settled (s := s) hs).mapState rfl
    | device s => exact (SettlingSink.settled (s := s) hs).mapState rfl
    | outside s => exact (SettlingSink.settled (s := s) hs).mapState rfl

/-! ## Layers -/

section Layers

variable [Closedness σ]

instance : Closedness (Quota σ) where
  WasClosed q := WasClosed q.inner

instance [Source σ] [SettlingSource σ] : SettlingSource (Quota σ) where
  close q := SettlingSource.close q.inner
  keeps := Quota.keeps_source SettlingSource.keeps
  settled {q} hq :=
    (SettlingSource.settled (s := q.inner) hq).mapState (f := fun s => Quota.mk s q.remaining) rfl

instance [Sink σ] [SettlingSink σ] : SettlingSink (Quota σ) where
  close q := SettlingSink.close q.inner
  keeps := Quota.keeps_sink SettlingSink.keeps
  settled {q} hq :=
    (SettlingSink.settled (s := q.inner) hq).mapState (f := fun s => Quota.mk s q.remaining) rfl

instance : Closedness (Traced σ) where
  WasClosed t := WasClosed t.inner

omit [Closedness σ] in
/-- A traced stream tells that closing has succeeded. -/
theorem Traced.settled [Closeable σ] [Closeable (Traced σ)]
    (hclose : (Closeable.close : Action (Traced σ) Unit) = observed .close Closeable.close)
    {t : Traced σ} (ht : Closeable.Settled t.inner) : Closeable.Settled t := by
  obtain ⟨log, hlog, hrun⟩ := ht
  refine ⟨log.push (.called t.label (.close (.ok ()))), ?_, ?_⟩
  · intro event hevent
    rcases Array.mem_push.1 hevent with hmem | rfl
    · exact hlog event hmem
    · exact ⟨t.label, rfl⟩
  · rw [hclose]
    simp only [observed, hrun]

instance [Source σ] [SettlingSource σ] : SettlingSource (Traced σ) where
  close t := SettlingSource.close t.inner
  keeps := Traced.keeps_source SettlingSource.keeps
  settled {t} ht := Traced.settled rfl (SettlingSource.settled (s := t.inner) ht)

instance [Sink σ] [SettlingSink σ] : SettlingSink (Traced σ) where
  close t := SettlingSink.close t.inner
  keeps := Traced.keeps_sink SettlingSink.keeps
  settled {t} ht := Traced.settled rfl (SettlingSink.settled (s := t.inner) ht)

instance : Closedness (Relay σ) where
  WasClosed t := WasClosed t.inner

instance [Source σ] [SettlingSource σ] : SettlingSource (Relay σ) where
  close t := SettlingSource.close t.inner
  keeps := Relay.keeps_source SettlingSource.keeps
  settled {t} ht := (SettlingSource.settled (s := t.inner) ht).mapState (f := Relay.mk) rfl

instance [Sink σ] [SettlingSink σ] : SettlingSink (Relay σ) where
  close t := SettlingSink.close t.inner
  keeps := Relay.keeps_sink SettlingSink.keeps
  settled {t} ht := (SettlingSink.settled (s := t.inner) ht).mapState (f := Relay.mk) rfl

end Layers

/-- Closing has nothing left to do once the policy was run, whatever the stream under the wrapper
remembers. -/
instance : Closedness (Closing P σ) where
  WasClosed c := c.applied = true

instance [Source σ] [ClosePolicy P σ] : SettlingSource (Closing P σ) where
  close := Closing.applied_shut
  keeps := ⟨fun c _ => Closing.applied_shut c, Closing.keeps_whenOpen fun _ hc => hc,
    Closing.keeps_whenOpenWith fun _ _ hc => hc,
    fun _ => Closing.keeps_whenOpenWith fun _ _ hc => hc,
    Closing.keeps_whenOpenWith fun _ _ hc => hc⟩
  settled hc := Closeable.settled_of_idle (Closing.idle_shut hc)

instance [Sink σ] [ClosePolicy P σ] : SettlingSink (Closing P σ) where
  close := Closing.applied_shut
  keeps := ⟨fun c _ => Closing.applied_shut c, fun _ => Closing.keeps_whenOpen fun _ hc => hc,
    Closing.keeps_whenOpen fun _ hc => hc, fun _ => Closing.keeps_whenOpen fun _ hc => hc,
    fun _ => Closing.keeps_whenOpen fun _ hc => hc, Closing.keeps_whenOpenWith fun _ _ hc => hc⟩
  settled hc := Closeable.settled_of_idle (Closing.idle_shut hc)

/-! ### Chains -/

namespace Chain

/-- A chain is marked as closed before any member is looked at. -/
instance : Closedness (Chain P σ) where
  WasClosed c := c.closed = true

theorem keeps_closed_onActive (x : Action σ α) :
    Keeps (WasClosed : Chain P σ → Prop) (onActive x) := by
  rintro ⟨left, _ | ⟨m, rest⟩, policy, closed⟩ hc
  · exact hc
  · exact hc

theorem keeps_closed_onActiveWith (x : Action (σ × ρ) α) :
    Keeps (fun p : Chain P σ × ρ => WasClosed p.1) (onActiveWith x) := by
  rintro ⟨⟨left, _ | ⟨m, rest⟩, policy, closed⟩, a⟩ hc
  · exact hc
  · exact hc

theorem keeps_closed_closeLast (close : Action σ Unit) :
    Keeps (WasClosed : Chain P σ → Prop) (closeLast close) := by
  rintro ⟨_ | ⟨last, earlier⟩, ahead, policy, closed⟩ hc
  · exact hc
  · exact hc

variable [ClosePolicy P σ]

theorem keeps_closed_leave (settle : Action σ Unit) :
    Keeps (WasClosed : Chain P σ → Prop) (leave settle) := by
  rintro ⟨left, _ | ⟨m, rest⟩, policy, closed⟩ hc
  · exact hc
  · exact hc

theorem closed_finish (settle close : Action σ Unit) (c : Chain P σ) :
    (finish settle close).Ends c fun _ d => WasClosed d :=
  ends_finish_of_keeps (keeps_closed_leave settle) (keeps_closed_closeLast close) id rfl

instance [Source σ] : SettlingSource (Chain P σ) where
  close := closed_finish _ _
  keeps := keeps_source (fun c _ => closed_finish _ _ c) (keeps_closed_leave _)
    (keeps_closed_onActive _) (keeps_closed_onActiveWith _)
  settled hc := Closeable.settled_of_idle (idle_finish_of_closed _ _ hc)

instance [Sink σ] : SettlingSink (Chain P σ) where
  close := closed_finish _ _
  keeps := keeps_sink (fun c _ => closed_finish _ _ c) (keeps_closed_leave _)
    (fun _ => keeps_closed_onActive _) (keeps_closed_onActive _) (keeps_closed_onActiveWith _)
  settled hc := Closeable.settled_of_idle (idle_finish_of_closed _ _ hc)

end Chain

/-! ### Any layer -/

instance [Closedness L] [Closedness σ] : Closedness (Layer P L σ) where
  WasClosed
    | .endpoint s => WasClosed s
    | .quota s => WasClosed s
    | .closing s => WasClosed s
    | .chain s => WasClosed s
    | .traced s => WasClosed s
    | .relay s => WasClosed s

section Layer

variable [Closedness L] [Closedness σ] [ClosePolicy P σ]

instance [Source L] [SettlingSource L] [Source σ] [SettlingSource σ] :
    SettlingSource (Layer P L σ) where
  close
    | .endpoint s => SettlingSource.close s
    | .quota s => SettlingSource.close s
    | .closing s => SettlingSource.close s
    | .chain s => SettlingSource.close s
    | .traced s => SettlingSource.close s
    | .relay s => SettlingSource.close s
  keeps := Layer.keeps_source SettlingSource.keeps SettlingSource.keeps SettlingSource.keeps
    SettlingSource.keeps SettlingSource.keeps SettlingSource.keeps
  settled {s} hs := by
    cases s with
    | endpoint s => exact (SettlingSource.settled (s := s) hs).mapState rfl
    | quota s => exact (SettlingSource.settled (s := s) hs).mapState rfl
    | closing s => exact (SettlingSource.settled (s := s) hs).mapState rfl
    | chain s => exact (SettlingSource.settled (s := s) hs).mapState rfl
    | traced s => exact (SettlingSource.settled (s := s) hs).mapState rfl
    | relay s => exact (SettlingSource.settled (s := s) hs).mapState rfl

instance [Sink L] [SettlingSink L] [Sink σ] [SettlingSink σ] : SettlingSink (Layer P L σ) where
  close
    | .endpoint s => SettlingSink.close s
    | .quota s => SettlingSink.close s
    | .closing s => SettlingSink.close s
    | .chain s => SettlingSink.close s
    | .traced s => SettlingSink.close s
    | .relay s => SettlingSink.close s
  keeps := Layer.keeps_sink SettlingSink.keeps SettlingSink.keeps SettlingSink.keeps
    SettlingSink.keeps SettlingSink.keeps SettlingSink.keeps
  settled {s} hs := by
    cases s with
    | endpoint s => exact (SettlingSink.settled (s := s) hs).mapState rfl
    | quota s => exact (SettlingSink.settled (s := s) hs).mapState rfl
    | closing s => exact (SettlingSink.settled (s := s) hs).mapState rfl
    | chain s => exact (SettlingSink.settled (s := s) hs).mapState rfl
    | traced s => exact (SettlingSink.settled (s := s) hs).mapState rfl
    | relay s => exact (SettlingSink.settled (s := s) hs).mapState rfl

end Layer

/-! ## Trees -/

namespace Tree

instance instClosedness [Closedness L] : (n : Nat) → Closedness (Tree P L n)
  | 0 => inferInstanceAs (Closedness Empty)
  | n + 1 =>
    have := instClosedness n
    inferInstanceAs (Closedness (Layer P L (Tree P L n)))

instance instSettlingSource [Source L] [Closedness L] [SettlingSource L] [SourcePolicy P] :
    (n : Nat) → SettlingSource (Tree P L n)
  | 0 => inferInstanceAs (SettlingSource Empty)
  | n + 1 =>
    have := instSettlingSource n
    inferInstanceAs (SettlingSource (Layer P L (Tree P L n)))

instance instSettlingSink [Sink L] [Closedness L] [SettlingSink L] [SinkPolicy P] :
    (n : Nat) → SettlingSink (Tree P L n)
  | 0 => inferInstanceAs (SettlingSink Empty)
  | n + 1 =>
    have := instSettlingSink n
    inferInstanceAs (SettlingSink (Layer P L (Tree P L n)))

end Tree

/-! ## Counting -/

/-- A policy that is run is counted, whatever it is run on. -/
def Counted.count (x : Action (P × σ) Bool) : Action (Counted P × σ) Bool :=
  .of fun (⟨policy, runs⟩, s) =>
    (x.run (policy, s)).mapState fun (policy, s) => (⟨policy, runs + 1⟩, s)

instance [SourcePolicy P] : SourcePolicy (Counted P) where
  onClose := Counted.count SourcePolicy.onClose

instance [SinkPolicy P] : SinkPolicy (Counted P) where
  onClose := Counted.count SinkPolicy.onClose

/-- A device, and how often it was flushed. -/
structure FlushCounted (E : Type) where
  device : E
  flushes : Nat

instance [OutputDevice E] : OutputDevice (FlushCounted E) where
  write offered d := Prod.map id (⟨·, d.flushes⟩) (OutputDevice.write offered d.device)
  flush d := Prod.map id (⟨·, d.flushes + 1⟩) (OutputDevice.flush d.device)
  patience d := OutputDevice.patience d.device
  write_le {offered d d' n} h := by
    obtain ⟨hanswer, -⟩ := Prod.mk.inj h
    exact OutputDevice.write_le (Prod.ext hanswer rfl)
  patience_write_le offered d := OutputDevice.patience_write_le offered d.device
  patience_interrupted {offered d d' e} h he := by
    obtain ⟨hanswer, rfl⟩ := Prod.mk.inj h
    exact OutputDevice.patience_interrupted (Prod.ext hanswer rfl) he

/-- The policies in a layer, given the ones in the streams below it. -/
def Layer.policies (below : σ → List P) : Layer P L σ → List P
  | .endpoint _ => []
  | .quota s => below s.inner
  | .closing s => s.policy :: below s.inner
  | .chain s => s.policy :: s.members.flatMap below
  | .traced s => below s.inner
  | .relay s => below s.inner

namespace Tree

/-- The policies in a tree. -/
def policies : {n : Nat} → Tree P L n → List P
  | 0, t => Empty.elim t
  | _ + 1, t => Layer.policies policies t

variable {n : Nat}

/-- How often the policies in a tree were run, all in all. -/
def policyRuns (t : Tree (Counted P) L n) : Nat := (t.policies.map Counted.runs).sum

/-- How often the devices under a tree were flushed, all in all. -/
def flushes (t : Tree P (SinkEnd (FlushCounted E) S) n) : Nat :=
  (t.leaves.map fun
    | .device s => s.device.flushes
    | _ => 0).sum

open Closing

/-- Build a source or a sink from layers over the endpoints of this library, with whatever policies
and devices, and use and close it in any order.  Once it was closed, and whatever was answered to
that, closing it succeeds and leaves the whole tree as it is; only the traced streams in it tell of
it.  No policy is run by it and no device is flushed, as one can see from those that keep count. -/
theorem settled_after_close [SourcePolicy P] [InputDevice D] [SinkPolicy Q] [OutputDevice E] :
    (∀ (t : Tree P (SourceEnd D Empty) n) (before later : List (Use Fetch)),
      Closeable.Settled (after Fetch.perform t (before ++ .close :: later))) ∧
    (∀ (t : Tree Q (SinkEnd E Empty) n) (before later : List (Use Submit)),
      Closeable.Settled (after Submit.perform t (before ++ .close :: later))) ∧
    (∀ (t : Tree (Counted P) (SourceEnd D Empty) n) (before later : List (Use Fetch)),
      let u := after Fetch.perform t (before ++ .close :: later)
      (Closeable.close : Action (Tree (Counted P) (SourceEnd D Empty) n) Unit).Ends u fun _ v =>
        v.policyRuns = u.policyRuns) ∧
    ∀ (t : Tree (Counted Q) (SinkEnd (FlushCounted E) Empty) n) (before later : List (Use Submit)),
      let u := after Submit.perform t (before ++ .close :: later)
      (Closeable.close : Action (Tree (Counted Q) (SinkEnd (FlushCounted E) Empty) n) Unit).Ends u
        fun _ v => v.policyRuns = u.policyRuns ∧ v.flushes = u.flushes := by
  refine ⟨?source, ?sink, ?countedSource, ?countedSink⟩
  case source =>
    exact settled_after SettlingSource.close SettlingSource.keeps.perform SettlingSource.settled
  case sink =>
    exact settled_after SettlingSink.close SettlingSink.keeps.perform SettlingSink.settled
  case countedSource =>
    intro t before later u
    have hsettled : Closeable.Settled u :=
      settled_after SettlingSource.close SettlingSource.keeps.perform SettlingSource.settled t
        before later
    obtain ⟨log, -, hrun⟩ := hsettled
    rw [Ends, hrun]
  case countedSink =>
    intro t before later u
    have hsettled : Closeable.Settled u :=
      settled_after SettlingSink.close SettlingSink.keeps.perform SettlingSink.settled t before
        later
    obtain ⟨log, -, hrun⟩ := hsettled
    rw [Ends, hrun]
    exact ⟨rfl, rfl⟩

/-- The device cannot be flushed when it is left, so that the chain and the policy over it fail.
Closing again succeeds all the same, and neither the policies nor the device are tried again. -/
theorem settled_after_close_of_faults :
    let T := Tree (Counted Policy) (SinkEnd (FlushCounted ScriptedOutput) Empty) 4
    let broken : IoError := ⟨.brokenPipe, "broken"⟩
    let device : ScriptedOutput := ⟨none, [], [some broken], ByteArray.empty, ByteArray.empty⟩
    let t : T := Layer.traced ⟨Layer.closing (.new
      ⟨.scripted { script := #[{ close := true }] }, 0⟩
      (Layer.chain (.new ⟨.standard .close, 0⟩
        [Layer.endpoint (.device { device := ⟨device, 0⟩ }),
          Layer.endpoint (.memory { data := Bytes.ofList [0] })]))), "log"⟩
    let use : Use Submit := .data (.value (.scalar .u8 (7 : UInt8)))
    let close : Action T Unit := Closeable.close
    let u : T := after Submit.perform t [use, .close, use]
    (close.run (after Submit.perform t [use])).answer = .error (.io broken) ∧
      u.policyRuns = 3 ∧ u.flushes = 2 ∧ Closeable.Settled u ∧
      close.Ends u fun _ v => v.policyRuns = 3 ∧ v.flushes = 2 := by
  intro T broken device t use close u
  obtain ⟨-, hsettled, -⟩ := settled_after_close (P := Policy) (D := ScriptedInput)
    (Q := Counted Policy) (E := FlushCounted ScriptedOutput) (n := 4)
  obtain ⟨-, -, -, hcounts⟩ := settled_after_close (P := Policy) (D := ScriptedInput)
    (Q := Policy) (E := ScriptedOutput) (n := 4)
  have hanswer : (close.run (after Submit.perform t [use])).answer = .error (.io broken) := by
    decide +kernel
  have hruns : u.policyRuns = 3 := by decide +kernel
  have hflushes : u.flushes = 2 := by decide +kernel
  refine ⟨hanswer, hruns, hflushes, hsettled t [use] [use], ?_⟩
  rw [← hruns, ← hflushes]
  exact hcounts t [use] [use]

end Tree

end ByteFlow
