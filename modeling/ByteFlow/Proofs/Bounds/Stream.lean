import ByteFlow.Proofs.Bounds.Region
import ByteFlow.Proofs.Meter.Leaves
import ByteFlow.Scripted.Policy

/-!
# Streams that stay in bounds

Every position in a stream stays in bounds if single operations keep it there, and the windows of
regions do if bulk operations move them on.  Both go from the endpoints of a tree to the whole of
it, provided that the policies in it act on a stream by its operations only.

## Main definitions

* `Source.Steady I`, `Sink.Steady I` — a stream keeps `I` and moves windows on.
* `LawfulSourcePolicy P`, `LawfulSinkPolicy P` — policies that act by operations only.
* `Quota.steady_source`, `Chain.steady_source`, `Layer.steady_source` — one rule a layer.
* `Tree.steady_source`, `Tree.steady_sink` — what the endpoints of a tree keep, the tree keeps.
-/

namespace ByteFlow

open ByteFlow.Action

variable {D P L S σ ρ α : Type}

/-! ## Streams -/

/-- The operations of the source keep the property, and move windows on. -/
structure Source.Steady [Source σ] (I : σ → Prop) : Prop where
  close : Action.Keeps I (Closeable.close : Action σ Unit)
  readU8 : Action.Keeps I (Source.readU8 : Action σ UInt8)
  readUnits : ∀ n,
    Action.Keeps (fun p => I p.1) (Source.readUnits n : Action (σ × Array UInt16) Unit)
  readBytes : Action.Steady I (Source.readBytes : Action (σ × Region) Unit)
  fill : Action.Steady I (Source.fill : Action (σ × Region) Unit)

/-- The operations of the sink keep the property, and move windows on. -/
structure Sink.Steady [Sink σ] (I : σ → Prop) : Prop where
  close : Action.Keeps I (Closeable.close : Action σ Unit)
  writeU8 : ∀ v, Action.Keeps I (Sink.writeU8 v : Action σ Unit)
  flush : Action.Keeps I (Sink.flush : Action σ Unit)
  writeBytes : ∀ bytes, Action.Keeps I (Sink.writeBytes bytes : Action σ Unit)
  writeUnits : ∀ units, Action.Keeps I (Sink.writeUnits units : Action σ Unit)
  drain : Action.Steady I (Sink.drain : Action (σ × Region) Unit)

namespace Source.Steady

variable [Source σ] {I : σ → Prop}

/-- It is enough to look at single bytes and fills if the other operations are made from these. -/
theorem of_readU8 (hclose : Action.Keeps I (Closeable.close : Action σ Unit))
    (hread : Action.Keeps I (Source.readU8 : Action σ UInt8))
    (hfill : Action.Steady I (Source.fill : Action (σ × Region) Unit))
    (hbytes : (Source.readBytes : Action (σ × Region) Unit) = fillCompletely Source.fill)
    (hunits : ∀ n, (Source.readUnits n : Action (σ × Array UInt16) Unit) =
      Bytewise.readUnits Source.readU8 n) : Steady I where
  close := hclose
  readU8 := hread
  readUnits n := by
    rw [hunits]
    exact .of_alikeBeside (hread.alike.readUnits n)
  readBytes := by
    rw [hbytes]
    exact hfill.fillCompletely
  fill := hfill

/-- A value of any kind. -/
theorem read (h : Steady I) (kind : Kind) : Action.Keeps I (kind.read : Action σ Value) :=
  .of_alike (alike_read h.readU8.alike (fun n => (h.readUnits n).alikeBeside)
    (fun n => (h.readBytes.alongside (Region.writable_allocate n _).toWellFormed).alike) kind)

end Source.Steady

namespace Sink.Steady

variable [Sink σ] {I : σ → Prop}

/-- It is enough to look at single bytes and drains if the other operations are made from
these. -/
theorem of_writeU8 (hclose : Action.Keeps I (Closeable.close : Action σ Unit))
    (hwrite : ∀ v, Action.Keeps I (Sink.writeU8 v : Action σ Unit))
    (hflush : Action.Keeps I (Sink.flush : Action σ Unit))
    (hdrain : Action.Steady I (Sink.drain : Action (σ × Region) Unit))
    (hbytes : ∀ bytes, (Sink.writeBytes bytes : Action σ Unit) = drainCompletely Sink.drain bytes)
    (hunits : ∀ units, (Sink.writeUnits units : Action σ Unit) =
      Bytewise.writeUnits Sink.writeU8 units) : Steady I where
  close := hclose
  writeU8 := hwrite
  flush := hflush
  writeBytes bytes := by
    rw [hbytes]
    exact hdrain.drainCompletely bytes
  writeUnits units := by
    rw [hunits]
    exact keeps_writeUnits hwrite units
  drain := hdrain

/-- A value of any kind. -/
theorem write (h : Steady I) (v : Value) : Action.Keeps I (v.write : Action σ Unit) :=
  .of_alike (alike_write (fun v => (h.writeU8 v).alike) (fun units => (h.writeUnits units).alike)
    (fun bytes => (h.writeBytes bytes).alike) v)

end Sink.Steady

/-! ## Policies -/

/-- A policy that acts on a source by its operations only, so that it keeps what they keep. -/
class LawfulSourcePolicy (P : Type) [SourcePolicy P] : Prop where
  keeps_onClose : ∀ {σ : Type} [Source σ] {I : σ → Prop}, Source.Steady I →
    Keeps (fun p => I p.2) (SourcePolicy.onClose : Action (P × σ) Bool)

/-- A policy that acts on a sink by its operations only, so that it keeps what they keep. -/
class LawfulSinkPolicy (P : Type) [SinkPolicy P] : Prop where
  keeps_onClose : ∀ {σ : Type} [Sink σ] {I : σ → Prop}, Sink.Steady I →
    Keeps (fun p => I p.2) (SinkPolicy.onClose : Action (P × σ) Bool)

theorem Action.Keeps.onSecond {I : σ → Prop} {x : Action σ α} (hx : Keeps I x) :
    Keeps (fun p : ρ × σ => I p.2) (Action.onSecond x) :=
  fun p hp => hx p.2 hp

namespace StandardPolicy

instance : LawfulSourcePolicy StandardPolicy := ⟨fun h => keeps_apply h.close⟩

instance : LawfulSinkPolicy StandardPolicy := ⟨fun h => keeps_apply h.close⟩

end StandardPolicy

namespace ScriptedPolicy

theorem keeps_apply [Closeable σ] {I : σ → Prop} {write : Bytes → Action σ Unit}
    (hclose : Keeps I (Closeable.close : Action σ Unit)) (hwrite : ∀ bytes, Keeps I (write bytes)) :
    Keeps (fun p => I p.2) (apply write : Action (ScriptedPolicy × σ) Bool) := by
  have hcount : Keeps (fun p : ScriptedPolicy × σ => I p.2)
      (Action.onFirst (modify fun policy => { policy with calls := policy.calls + 1 })) :=
    fun _ hs => hs
  have hclosing {finish : Action (ScriptedPolicy × σ) Bool}
      (hfinish : Keeps (fun p => I p.2) finish) (close : Bool) :
      Keeps (fun p : ScriptedPolicy × σ => I p.2)
        (if close then Action.onSecond Closeable.close >>= fun _ => finish else finish) := by
    cases close with
    | true => exact hclose.onSecond.bind fun _ => hfinish
    | false => exact hfinish
  refine (Keeps.gets _).bind fun entry => hcount.bind fun _ => ?_
  rcases entry with ⟨write, close, fault | verdict⟩
  · cases write with
    | none => exact hclosing (.fail fault) close
    | some bytes => exact (hwrite bytes).onSecond.bind fun _ => hclosing (.fail fault) close
  · cases write with
    | none => exact hclosing (.pure verdict) close
    | some bytes => exact (hwrite bytes).onSecond.bind fun _ => hclosing (.pure verdict) close

instance : LawfulSourcePolicy ScriptedPolicy := ⟨fun h => keeps_apply h.close fun _ => .pure ()⟩

instance : LawfulSinkPolicy ScriptedPolicy := ⟨fun h => keeps_apply h.close h.writeBytes⟩

end ScriptedPolicy

namespace Policy

theorem keeps_apply {I : σ → Prop} {standardCall : Action (StandardPolicy × σ) Bool}
    {scriptedCall : Action (ScriptedPolicy × σ) Bool}
    (hstandard : Keeps (fun p => I p.2) standardCall)
    (hscripted : Keeps (fun p => I p.2) scriptedCall) :
    Keeps (fun p => I p.2) (apply standardCall scriptedCall)
  | (.standard policy, s), hs => hstandard (policy, s) hs
  | (.scripted policy, s), hs => hscripted (policy, s) hs

instance : LawfulSourcePolicy Policy :=
  ⟨fun h => keeps_apply (LawfulSourcePolicy.keeps_onClose h) (LawfulSourcePolicy.keeps_onClose h)⟩

instance : LawfulSinkPolicy Policy :=
  ⟨fun h => keeps_apply (LawfulSinkPolicy.keeps_onClose h) (LawfulSinkPolicy.keeps_onClose h)⟩

end Policy

/-! ## Layers over one stream -/

section Wrappers

variable {I : σ → Prop}

namespace Quota

/-- The window is narrowed for the stream under the quota, and widened again. -/
theorem steady_clipped {bulk : Action (σ × Region) Unit} (h : Action.Steady I bulk) :
    Action.Steady (fun q : Quota σ => I q.inner) (clipped bulk) := by
  refine .of_ends fun q r hq hr => ?_
  rw [ends_clipped]
  by_cases hzero : q.remaining = 0
  · rw [if_pos hzero]
    exact ⟨hq, .refl hr⟩
  · rw [if_neg hzero]
    refine (h.ends hq (hr.narrowed q.remaining)).mono ?_
    rintro answer p ⟨hp, honward⟩
    exact ⟨hp, (honward.widen hr).1⟩

theorem steady_source [Source σ] (h : Source.Steady I) :
    Source.Steady fun q : Quota σ => I q.inner :=
  .of_readU8 (fun q hq => h.close q.inner hq) (keeps_counted h.readU8) (steady_clipped h.fill) rfl
    fun _ => rfl

theorem steady_sink [Sink σ] (h : Sink.Steady I) : Sink.Steady fun q : Quota σ => I q.inner :=
  .of_writeU8 (fun q hq => h.close q.inner hq) (fun v => keeps_counted (h.writeU8 v))
    (fun q hq => h.flush q.inner hq) (steady_clipped h.drain) (fun _ => rfl) fun _ => rfl

end Quota

theorem Traced.steady_source [Source σ] (h : Source.Steady I) :
    Source.Steady fun t : Traced σ => I t.inner where
  close t ht := h.close t.inner ht
  readU8 t ht := h.readU8 t.inner ht
  readUnits n p hp := h.readUnits n (p.1.inner, p.2) hp
  readBytes r hr p hp := h.readBytes r hr (p.1.inner, p.2) hp
  fill r hr p hp := h.fill r hr (p.1.inner, p.2) hp

theorem Traced.steady_sink [Sink σ] (h : Sink.Steady I) :
    Sink.Steady fun t : Traced σ => I t.inner where
  close t ht := h.close t.inner ht
  writeU8 v t ht := h.writeU8 v t.inner ht
  flush t ht := h.flush t.inner ht
  writeBytes bytes t ht := h.writeBytes bytes t.inner ht
  writeUnits units t ht := h.writeUnits units t.inner ht
  drain r hr p hp := h.drain r hr (p.1.inner, p.2) hp

theorem Relay.steady_source [Source σ] (h : Source.Steady I) :
    Source.Steady fun t : Relay σ => I t.inner where
  close t ht := h.close t.inner ht
  readU8 t ht := h.readU8 t.inner ht
  readUnits n p hp := h.readUnits n (p.1.inner, p.2) hp
  readBytes r hr p hp := h.readBytes r hr (p.1.inner, p.2) hp
  fill r hr p hp := h.fill r hr (p.1.inner, p.2) hp

theorem Relay.steady_sink [Sink σ] (h : Sink.Steady I) :
    Sink.Steady fun t : Relay σ => I t.inner where
  close t ht := h.close t.inner ht
  writeU8 v t ht := h.writeU8 v t.inner ht
  flush t ht := h.flush t.inner ht
  writeBytes bytes t ht := h.writeBytes bytes t.inner ht
  writeUnits units t ht := h.writeUnits units t.inner ht
  drain r hr p hp := h.drain r hr (p.1.inner, p.2) hp

namespace Closing

theorem steady_whenOpenWith {bulk : Action (σ × Region) Unit} (h : Action.Steady I bulk) :
    Action.Steady (fun c : Closing P σ => I c.inner) (whenOpenWith bulk) :=
  fun r hr => keeps_whenOpenWith fun c a ha => h r hr (c.inner, a) ha

variable [ClosePolicy P σ]
  (hpolicy : Keeps (fun p => I p.2) (ClosePolicy.onClose : Action (P × σ) Bool))
include hpolicy

theorem steady_source [Source σ] (h : Source.Steady I) :
    Source.Steady fun c : Closing P σ => I c.inner where
  close := keeps_shut hpolicy
  readU8 := keeps_whenOpen fun c hc => h.readU8 c.inner hc
  readUnits n := keeps_whenOpenWith fun c a hc => h.readUnits n (c.inner, a) hc
  readBytes := steady_whenOpenWith h.readBytes
  fill := steady_whenOpenWith h.fill

theorem steady_sink [Sink σ] (h : Sink.Steady I) :
    Sink.Steady fun c : Closing P σ => I c.inner where
  close := keeps_shut hpolicy
  writeU8 v := keeps_whenOpen fun c hc => h.writeU8 v c.inner hc
  flush := keeps_whenOpen fun c hc => h.flush c.inner hc
  writeBytes bytes := keeps_whenOpen fun c hc => h.writeBytes bytes c.inner hc
  writeUnits units := keeps_whenOpen fun c hc => h.writeUnits units c.inner hc
  drain := steady_whenOpenWith h.drain

end Closing

end Wrappers

/-! ## Chains -/

namespace Chain

variable {I : σ → Prop}

/-- Every member has the property, whether it was left or not. -/
def All (I : σ → Prop) (c : Chain P σ) : Prop := ∀ m ∈ c.members, I m

theorem all_cons_iff {left rest : List σ} {m : σ} {policy : P} {closed : Bool} :
    All I (⟨left, m :: rest, policy, closed⟩ : Chain P σ) ↔
      (∀ m ∈ left, I m) ∧ I m ∧ ∀ m ∈ rest, I m := by
  simp [All, members, or_imp, forall_and]

theorem all_left_iff {left ahead : List σ} {m : σ} {policy : P} {closed : Bool} :
    All I (⟨m :: left, ahead, policy, closed⟩ : Chain P σ) ↔
      (∀ m ∈ left, I m) ∧ I m ∧ ∀ m ∈ ahead, I m := by
  simp [All, members, or_imp, forall_and, and_left_comm]

theorem keeps_all_onActive {x : Action σ α} (hx : Keeps I x) :
    Keeps (All I : Chain P σ → Prop) (onActive x) := by
  rintro ⟨left, _ | ⟨m, rest⟩, policy, closed⟩ hc
  · exact hc
  · obtain ⟨hleft, hm, hrest⟩ := all_cons_iff.1 hc
    rw [ends_onActive_cons]
    exact (hx m hm).mono fun _ _ hm' => all_cons_iff.2 ⟨hleft, hm', hrest⟩

theorem keeps_all_onActiveWith {bulk : Action (σ × Region) Unit} (h : Action.Steady I bulk)
    {r : Region} (hr : r.WellFormed) :
    Keeps (fun p : Chain P σ × Region => All I p.1 ∧ r.Onward p.2) (onActiveWith bulk) := by
  rintro ⟨⟨left, _ | ⟨m, rest⟩, policy, closed⟩, q⟩ ⟨hc, hq⟩
  · exact ⟨hc, hq⟩
  · obtain ⟨hleft, hm, hrest⟩ := all_cons_iff.1 hc
    rw [ends_onActiveWith_cons]
    refine (h r hr (m, q) ⟨hm, hq⟩).mono ?_
    rintro answer p ⟨hm', hp⟩
    exact ⟨all_cons_iff.2 ⟨hleft, hm', hrest⟩, hp⟩

theorem keeps_all_closeLast {close : Action σ Unit} (hclose : Keeps I close) :
    Keeps (All I : Chain P σ → Prop) (closeLast close) := by
  rintro ⟨_ | ⟨last, earlier⟩, ahead, policy, closed⟩ hc
  · exact hc
  · obtain ⟨hearlier, hlast, hahead⟩ := all_left_iff.1 hc
    rw [ends_closeLast]
    exact (hclose last hlast).mono fun _ _ hlast' => all_left_iff.2 ⟨hearlier, hlast', hahead⟩

variable [ClosePolicy P σ]
  (hpolicy : Keeps (fun p => I p.2) (ClosePolicy.onClose : Action (P × σ) Bool))
include hpolicy

theorem keeps_all_leave {settle : Action σ Unit} (hsettle : Keeps I settle) :
    Keeps (All I : Chain P σ → Prop) (leave settle) := by
  rintro ⟨left, _ | ⟨m, rest⟩, policy, closed⟩ hc
  · exact hc
  · obtain ⟨hleft, hm, hrest⟩ := all_cons_iff.1 hc
    rw [ends_leave_cons]
    refine (hsettle m hm).mono fun settled m' hm' => ?_
    exact (hpolicy (policy, m') hm').mono fun judged p hp => all_left_iff.2 ⟨hleft, hp, hrest⟩

theorem keeps_all_finish {settle close : Action σ Unit} (hsettle : Keeps I settle)
    (hclose : Keeps I close) : Keeps (All I : Chain P σ → Prop) (finish settle close) :=
  fun _ hc => ends_finish_of_keeps (keeps_all_leave hpolicy hsettle) (keeps_all_closeLast hclose)
    (fun _ => hc) hc

section Spread

variable {settle : Action σ Unit} (hsettle : Keeps I settle) {bulk : Action (σ × Region) Unit}
  (h : Action.Steady I bulk)
include hsettle h

theorem steady_spreadTurn :
    Action.Steady (All I : Chain P σ → Prop) (spreadTurn settle bulk) :=
  fun _ hr => keeps_spreadTurn
    (fun p hp => ⟨keeps_all_leave hpolicy hsettle p.1 hp.1, hp.2⟩) (keeps_all_onActiveWith h hr)

theorem steady_spread : Action.Steady (All I : Chain P σ → Prop) (spread settle bulk) :=
  fun r hr => (Keeps.gets _).bind fun ahead =>
    .repeatUntil (steady_spreadTurn hpolicy hsettle h r hr) (.pure ()) ahead

end Spread

theorem steady_source [Source σ] (h : Source.Steady I) :
    Source.Steady (All I : Chain P σ → Prop) :=
  .of_readU8 (keeps_all_finish hpolicy (.pure ()) h.close)
    (keeps_pull (keeps_all_leave hpolicy (.pure ())) (keeps_all_onActive h.readU8))
    (steady_spread hpolicy (.pure ()) h.fill) rfl fun _ => rfl

theorem steady_sink [Sink σ] (h : Sink.Steady I) : Sink.Steady (All I : Chain P σ → Prop) := by
  refine .of_writeU8 (keeps_all_finish hpolicy h.flush h.close)
    (fun v => keeps_pull (keeps_all_leave hpolicy h.flush) (keeps_all_onActive (h.writeU8 v)))
    ((Keeps.gets _).bind fun exhausted => ?_) (steady_spread hpolicy h.flush h.drain)
    (fun _ => rfl) fun _ => rfl
  cases exhausted with
  | true => exact .pure ()
  | false => exact keeps_all_onActive h.flush

end Chain

/-! ## Trees -/

/-- Every endpoint under the tree has the property. -/
def Tree.All {n : Nat} (J : L → Prop) (t : Tree P L n) : Prop := ∀ e ∈ t.leaves, J e

namespace Layer

/-- Every endpoint under the layer has the property, given what that means below it. -/
def All (below : σ → Prop) (J : L → Prop) : Layer P L σ → Prop
  | .endpoint e => J e
  | .quota q => below q.inner
  | .closing c => below c.inner
  | .chain c => Chain.All below c
  | .traced t => below t.inner
  | .relay t => below t.inner

theorem all_leaves_iff {leaves : σ → List L} {J : L → Prop} (s : Layer P L σ) :
    (∀ e ∈ s.leaves leaves, J e) ↔ s.All (fun t => ∀ e ∈ leaves t, J e) J := by
  cases s with
  | endpoint e => exact List.forall_mem_singleton
  | chain c => exact List.forall_mem_flatMap
  | quota _ | closing _ | traced _ | relay _ => rfl

variable [ClosePolicy P σ] {I : σ → Prop} {J : L → Prop}
  (hpolicy : Keeps (fun p => I p.2) (ClosePolicy.onClose : Action (P × σ) Bool))
include hpolicy

theorem steady_source [Source L] [Source σ] (he : Source.Steady J) (h : Source.Steady I) :
    Source.Steady (All I J : Layer P L σ → Prop) := by
  have hq := Quota.steady_source h
  have hc := Closing.steady_source hpolicy h
  have hn := Chain.steady_source hpolicy h
  have ht := Traced.steady_source h
  have hr := Relay.steady_source h
  exact {
    close := ends_act he.close hq.close hc.close hn.close ht.close hr.close
    readU8 := ends_act he.readU8 hq.readU8 hc.readU8 hn.readU8 ht.readU8 hr.readU8
    readUnits := fun n => ends_actWith (he.readUnits n) (hq.readUnits n) (hc.readUnits n)
      (hn.readUnits n) (ht.readUnits n) (hr.readUnits n)
    readBytes := fun r hw => ends_actWith (he.readBytes r hw) (hq.readBytes r hw)
      (hc.readBytes r hw) (hn.readBytes r hw) (ht.readBytes r hw) (hr.readBytes r hw)
    fill := fun r hw => ends_actWith (he.fill r hw) (hq.fill r hw) (hc.fill r hw) (hn.fill r hw)
      (ht.fill r hw) (hr.fill r hw) }

theorem steady_sink [Sink L] [Sink σ] (he : Sink.Steady J) (h : Sink.Steady I) :
    Sink.Steady (All I J : Layer P L σ → Prop) := by
  have hq := Quota.steady_sink h
  have hc := Closing.steady_sink hpolicy h
  have hn := Chain.steady_sink hpolicy h
  have ht := Traced.steady_sink h
  have hr := Relay.steady_sink h
  exact {
    close := ends_act he.close hq.close hc.close hn.close ht.close hr.close
    writeU8 := fun v => ends_act (he.writeU8 v) (hq.writeU8 v) (hc.writeU8 v) (hn.writeU8 v)
      (ht.writeU8 v) (hr.writeU8 v)
    flush := ends_act he.flush hq.flush hc.flush hn.flush ht.flush hr.flush
    writeBytes := fun bs => ends_act (he.writeBytes bs) (hq.writeBytes bs) (hc.writeBytes bs)
      (hn.writeBytes bs) (ht.writeBytes bs) (hr.writeBytes bs)
    writeUnits := fun us => ends_act (he.writeUnits us) (hq.writeUnits us) (hc.writeUnits us)
      (hn.writeUnits us) (ht.writeUnits us) (hr.writeUnits us)
    drain := fun r hw => ends_actWith (he.drain r hw) (hq.drain r hw) (hc.drain r hw)
      (hn.drain r hw) (ht.drain r hw) (hr.drain r hw) }

end Layer

namespace Tree

variable {J : L → Prop}

theorem all_eq (n : Nat) : (All J : Tree P L (n + 1) → Prop) = Layer.All (All J) J :=
  funext fun s => propext (Layer.all_leaves_iff s)

/-- What the endpoints keep, the tree keeps. -/
theorem steady_source [Source L] [SourcePolicy P] [LawfulSourcePolicy P] (h : Source.Steady J)
    (n : Nat) : Source.Steady (All J : Tree P L n → Prop) := by
  induction n with
  | zero => exact ⟨nofun, nofun, fun _ => nofun, fun _ _ => nofun, fun _ _ => nofun⟩
  | succ n ih =>
    rw [all_eq]
    exact Layer.steady_source (LawfulSourcePolicy.keeps_onClose ih) h ih

theorem steady_sink [Sink L] [SinkPolicy P] [LawfulSinkPolicy P] (h : Sink.Steady J) (n : Nat) :
    Sink.Steady (All J : Tree P L n → Prop) := by
  induction n with
  | zero =>
    exact ⟨nofun, fun _ => nofun, nofun, fun _ => nofun, fun _ => nofun, fun _ _ => nofun⟩
  | succ n ih =>
    rw [all_eq]
    exact Layer.steady_sink (LawfulSinkPolicy.keeps_onClose ih) h ih

end Tree

end ByteFlow
