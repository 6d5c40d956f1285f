import ByteFlow.Endpoint.Basic
import ByteFlow.Proofs.Closing.Data

/-!
# Properties that operations keep

An operation keeps a property of a stream if the property holds afterwards whatever the operation
answers.  For the data operations it is enough to look at the single ones, and a layer keeps what
the streams under it keep, provided that the layer's own part of the state is as it has to be.

## Main definitions

* `Action.Keeps I x` — the operation keeps the property.
* `Source.Keeps I`, `Sink.Keeps I` — the single operations of a stream keep it.
* `Source.Keeps.perform`, `Sink.Keeps.perform` — so every data operation does.
* `Quota.keeps_source`, `Chain.keeps_source`, `Layer.keeps_source` — one rule a layer.
* `Layer.ends_act`, `SourceEnd.ends_act` — how an operation on any layer or any endpoint ends.
* `deviceTurn` — one turn of the loops that move bytes between a device and a window.
-/

namespace ByteFlow

open ByteFlow.Action

variable {D P L S σ τ ρ α β : Type}

namespace Action

/-- The operation keeps the property, whatever it answers. -/
def Keeps (I : σ → Prop) (x : Action σ α) : Prop := ∀ s, I s → x.Ends s fun _ t => I t

/-- The same state twice, with the property. -/
def Twice (I : σ → Prop) (s t : σ) : Prop := s = t ∧ I s

namespace Keeps

variable {I : σ → Prop}

protected theorem pure (a : α) : Keeps I (pure a : Action σ α) := fun _ hs => hs

theorem fail (fault : Fault) : Keeps I (Action.fail fault : Action σ α) := fun _ hs => hs

theorem gets (f : σ → α) : Keeps I (Action.gets f) := fun _ hs => hs

protected theorem bind {x : Action σ α} {f : α → Action σ β} (hx : Keeps I x)
    (hf : ∀ a, Keeps I (f a)) : Keeps I (x >>= f) :=
  fun s hs => (hx s hs).bind (fun a t ht => hf a t ht) fun _ _ ht => ht

theorem attempt {x : Action σ α} (hx : Keeps I x) : Keeps I (Action.attempt x) := hx

theorem repeatUntil {body : Action σ (Option α)} {otherwise : Action σ α} (hbody : Keeps I body)
    (hotherwise : Keeps I otherwise) (n : Nat) :
    Keeps I (Action.repeatUntil n body otherwise) := by
  induction n with
  | zero =>
    rw [repeatUntil_zero]
    exact hotherwise
  | succ n ih =>
    rw [repeatUntil_succ]
    refine hbody.bind fun answer => ?_
    cases answer with
    | none => exact ih
    | some a => exact .pure a

theorem onFirst {x : Action σ α} (hx : Keeps I x) :
    Keeps (fun p : σ × ρ => I p.1) (Action.onFirst x) :=
  fun p hp => hx p.1 hp

theorem alongside {x : Action (σ × ρ) α} (hx : Keeps (fun p => I p.1) x) (a : ρ) :
    Keeps I (Action.alongside a x) := by
  intro s hs
  rw [ends_alongside]
  exact hx (s, a) hs

/-- An operation that keeps the property does the same when it is done again, and it can be taken
apart like this. -/
theorem alike {x : Action σ α} (hx : Keeps I x) : Alike (Twice I) x x := by
  rintro s t ⟨rfl, hs⟩
  exact ⟨rfl, rfl, rfl, hx s hs⟩

theorem alikeBeside {x : Action (σ × ρ) α} (hx : Keeps (fun p => I p.1) x) :
    Alike (Beside (Twice I)) x x := by
  rintro ⟨s, a⟩ ⟨t, b⟩ ⟨⟨rfl, hs⟩, rfl⟩
  exact ⟨rfl, rfl, ⟨rfl, hx (s, a) hs⟩, rfl⟩

theorem of_alike {x : Action σ α} (h : Alike (Twice I) x x) : Keeps I x :=
  fun s hs => (h s s ⟨rfl, hs⟩).2.2.2

theorem of_alikeBeside {x : Action (σ × ρ) α} (h : Alike (Beside (Twice I)) x x) :
    Keeps (fun p => I p.1) x :=
  fun p hp => (h p p ⟨⟨rfl, hp⟩, rfl⟩).2.2.1.2

end Keeps

end Action

/-! ## Streams -/

namespace Source

/-- The single operations of the source keep the property. -/
structure Keeps [Source σ] (I : σ → Prop) : Prop where
  close : Action.Keeps I (Closeable.close : Action σ Unit)
  readU8 : Action.Keeps I (Source.readU8 : Action σ UInt8)
  readBytes : Action.Keeps (fun p => I p.1) (Source.readBytes : Action (σ × Region) Unit)
  readUnits : ∀ n,
    Action.Keeps (fun p => I p.1) (Source.readUnits n : Action (σ × Array UInt16) Unit)
  fill : Action.Keeps (fun p => I p.1) (Source.fill : Action (σ × Region) Unit)

theorem keeps_fillCompletely {I : σ → Prop} {fill : Action (σ × Region) Unit}
    (hfill : Action.Keeps (fun p => I p.1) fill) :
    Action.Keeps (fun p => I p.1) (fillCompletely fill) := by
  refine hfill.bind fun _ => (Action.Keeps.gets _).bind fun more => ?_
  cases more with
  | false => exact .pure ()
  | true => exact .fail _

variable [Source σ] {I : σ → Prop}

/-- It is enough to look at single bytes and fills if the other operations are made from these. -/
theorem Keeps.of_readU8 (hclose : Action.Keeps I (Closeable.close : Action σ Unit))
    (hread : Action.Keeps I (Source.readU8 : Action σ UInt8))
    (hfill : Action.Keeps (fun p => I p.1) (Source.fill : Action (σ × Region) Unit))
    (hbytes : (Source.readBytes : Action (σ × Region) Unit) = fillCompletely Source.fill)
    (hunits : ∀ n, (Source.readUnits n : Action (σ × Array UInt16) Unit) =
      Bytewise.readUnits Source.readU8 n) : Keeps I where
  close := hclose
  readU8 := hread
  readBytes := by
    rw [hbytes]
    exact keeps_fillCompletely hfill
  readUnits n := by
    rw [hunits]
    exact .of_alikeBeside (hread.alike.readUnits n)
  fill := hfill

theorem Keeps.twins (h : Keeps I) : Twins (Twice I) where
  readU8 := h.readU8.alike
  readBytes := h.readBytes.alikeBeside
  readUnits n := (h.readUnits n).alikeBeside
  fill := h.fill.alikeBeside

/-- What the single operations keep, every data operation keeps. -/
theorem Keeps.perform (h : Keeps I) (op : Fetch) :
    Action.Keeps I (op.perform : Action σ Fetched) :=
  .of_alike (h.twins.perform op)

end Source

namespace Sink

/-- The single operations of the sink keep the property. -/
structure Keeps [Sink σ] (I : σ → Prop) : Prop where
  close : Action.Keeps I (Closeable.close : Action σ Unit)
  writeU8 : ∀ v, Action.Keeps I (Sink.writeU8 v : Action σ Unit)
  flush : Action.Keeps I (Sink.flush : Action σ Unit)
  writeBytes : ∀ bytes, Action.Keeps I (Sink.writeBytes bytes : Action σ Unit)
  writeUnits : ∀ units, Action.Keeps I (Sink.writeUnits units : Action σ Unit)
  drain : Action.Keeps (fun p => I p.1) (Sink.drain : Action (σ × Region) Unit)

theorem keeps_drainCompletely {I : σ → Prop} {drain : Action (σ × Region) Unit}
    (hdrain : Action.Keeps (fun p => I p.1) drain) (bytes : Bytes) :
    Action.Keeps I (drainCompletely drain bytes) :=
  ((Source.keeps_fillCompletely hdrain).alongside _).bind fun _ => .pure ()

variable [Sink σ] {I : σ → Prop}

theorem keeps_writeUnits (hwrite : ∀ v, Action.Keeps I (Sink.writeU8 v : Action σ Unit))
    (units : Array UInt16) :
    Action.Keeps I (Bytewise.writeUnits (Sink.writeU8 : UInt8 → Action σ Unit) units) :=
  .of_alike (.writeUnits (fun v => (hwrite v).alike) units)

/-- It is enough to look at single bytes and drains if the other operations are made from
these. -/
theorem Keeps.of_writeU8 (hclose : Action.Keeps I (Closeable.close : Action σ Unit))
    (hwrite : ∀ v, Action.Keeps I (Sink.writeU8 v : Action σ Unit))
    (hflush : Action.Keeps I (Sink.flush : Action σ Unit))
    (hdrain : Action.Keeps (fun p => I p.1) (Sink.drain : Action (σ × Region) Unit))
    (hbytes : ∀ bytes, (Sink.writeBytes bytes : Action σ Unit) = drainCompletely Sink.drain bytes)
    (hunits : ∀ units, (Sink.writeUnits units : Action σ Unit) =
      Bytewise.writeUnits Sink.writeU8 units) : Keeps I where
  close := hclose
  writeU8 := hwrite
  flush := hflush
  writeBytes bytes := by
    rw [hbytes]
    exact keeps_drainCompletely hdrain bytes
  writeUnits units := by
    rw [hunits]
    exact keeps_writeUnits hwrite units
  drain := hdrain

theorem Keeps.twins (h : Keeps I) : Twins (Twice I) where
  writeU8 v := (h.writeU8 v).alike
  flush := h.flush.alike
  writeBytes bytes := (h.writeBytes bytes).alike
  writeUnits units := (h.writeUnits units).alike
  drain := h.drain.alikeBeside

/-- What the single operations keep, every data operation keeps. -/
theorem Keeps.perform (h : Keeps I) (op : Submit) :
    Action.Keeps I (op.perform : Action σ Submitted) :=
  .of_alike (h.twins.perform op)

end Sink

/-! ## Layers over one stream -/

section Wrappers

variable {I : σ → Prop}

namespace Quota

theorem keeps_counted {x : Action σ α} (hx : Keeps I x) :
    Keeps (fun q : Quota σ => I q.inner) (counted x) := by
  intro q hq
  rw [ends_counted]
  by_cases hzero : q.remaining = 0
  · rwa [if_pos hzero]
  · rw [if_neg hzero]
    refine (hx q.inner hq).mono ?_
    intro answer s hs
    cases answer with
    | ok a => exact hs
    | error fault => exact hs

theorem keeps_clipped {bulk : Action (σ × Region) Unit} (hbulk : Keeps (fun p => I p.1) bulk) :
    Keeps (fun p : Quota σ × Region => I p.1.inner) (clipped bulk) := by
  rintro ⟨q, r⟩ hq
  rw [ends_clipped]
  by_cases hzero : q.remaining = 0
  · rwa [if_pos hzero]
  · rw [if_neg hzero]
    exact hbulk (q.inner, _) hq

theorem keeps_source [Source σ] (h : Source.Keeps I) :
    Source.Keeps fun q : Quota σ => I q.inner :=
  .of_readU8 (fun q hq => h.close q.inner hq) (keeps_counted h.readU8) (keeps_clipped h.fill) rfl
    fun _ => rfl

theorem keeps_sink [Sink σ] (h : Sink.Keeps I) : Sink.Keeps fun q : Quota σ => I q.inner :=
  .of_writeU8 (fun q hq => h.close q.inner hq) (fun v => keeps_counted (h.writeU8 v))
    (fun q hq => h.flush q.inner hq) (keeps_clipped h.drain) (fun _ => rfl) fun _ => rfl

end Quota

theorem Traced.keeps_source [Source σ] (h : Source.Keeps I) :
    Source.Keeps fun t : Traced σ => I t.inner where
  close t ht := h.close t.inner ht
  readU8 t ht := h.readU8 t.inner ht
  readBytes p hp := h.readBytes (p.1.inner, p.2) hp
  readUnits n p hp := h.readUnits n (p.1.inner, p.2) hp
  fill p hp := h.fill (p.1.inner, p.2) hp

theorem Traced.keeps_sink [Sink σ] (h : Sink.Keeps I) :
    Sink.Keeps fun t : Traced σ => I t.inner where
  close t ht := h.close t.inner ht
  writeU8 v t ht := h.writeU8 v t.inner ht
  flush t ht := h.flush t.inner ht
  writeBytes bytes t ht := h.writeBytes bytes t.inner ht
  writeUnits units t ht := h.writeUnits units t.inner ht
  drain p hp := h.drain (p.1.inner, p.2) hp

theorem Relay.keeps_source [Source σ] (h : Source.Keeps I) :
    Source.Keeps fun t : Relay σ => I t.inner where
  close t ht := h.close t.inner ht
  readU8 t ht := h.readU8 t.inner ht
  readBytes p hp := h.readBytes (p.1.inner, p.2) hp
  readUnits n p hp := h.readUnits n (p.1.inner, p.2) hp
  fill p hp := h.fill (p.1.inner, p.2) hp

theorem Relay.keeps_sink [Sink σ] (h : Sink.Keeps I) :
    Sink.Keeps fun t : Relay σ => I t.inner where
  close t ht := h.close t.inner ht
  writeU8 v t ht := h.writeU8 v t.inner ht
  flush t ht := h.flush t.inner ht
  writeBytes bytes t ht := h.writeBytes bytes t.inner ht
  writeUnits units t ht := h.writeUnits units t.inner ht
  drain p hp := h.drain (p.1.inner, p.2) hp

/-- The usual policies close the stream or leave it alone. -/
theorem StandardPolicy.keeps_apply [Closeable σ]
    (hclose : Keeps I (Closeable.close : Action σ Unit)) :
    Keeps (fun p => I p.2) (apply : Action (StandardPolicy × σ) Bool) := by
  rintro ⟨policy, s⟩ hs
  rw [ends_apply]
  cases policy with
  | close => exact hclose s hs
  | leaveOpen => exact hs
  | fence => exact hs

/-- What the policy keeps of the stream under the wrapper, closing the wrapper keeps of it. -/
theorem Closing.keeps_shut [ClosePolicy P σ]
    (hpolicy : Keeps (fun p => I p.2) (ClosePolicy.onClose : Action (P × σ) Bool)) :
    Keeps (fun c : Closing P σ => I c.inner) shut := by
  intro c hc
  rw [ends_shut]
  by_cases happlied : c.applied = true
  · rwa [if_pos happlied]
  · rw [if_neg happlied]
    refine (hpolicy (c.policy, c.inner) hc).mono ?_
    intro answer p hp
    cases answer <;> exact hp

end Wrappers

namespace Closing

variable {J : Closing P σ → Prop}

/-- An operation on the stream under the wrapper changes nothing else. -/
theorem keeps_whenOpen {x : Action σ α}
    (hx : ∀ c, J c → x.Ends c.inner fun _ s => J { c with inner := s }) :
    Keeps J (whenOpen x) := by
  intro c hc
  cases hclosed : c.closed with
  | true => exact (ends_whenOpen_of_closed hclosed ..).2 hc
  | false => exact (ends_whenOpen hclosed ..).2 (hx c hc)

theorem keeps_whenOpenWith {K : Closing P σ × ρ → Prop} {x : Action (σ × ρ) α}
    (hx : ∀ c a, K (c, a) → x.Ends (c.inner, a) fun _ p => K ({ c with inner := p.1 }, p.2)) :
    Keeps K (whenOpenWith x) := by
  rintro ⟨c, a⟩ hc
  cases hclosed : c.closed with
  | true => exact (ends_whenOpenWith_of_closed hclosed ..).2 hc
  | false => exact (ends_whenOpenWith hclosed ..).2 (hx c a hc)

/-- What a sink keeps, a wrapper keeps of the sink under it if its policy does. -/
theorem keeps_sink [Sink σ] [ClosePolicy P σ] {I : σ → Prop}
    (hpolicy : Keeps (fun p => I p.2) (ClosePolicy.onClose : Action (P × σ) Bool))
    (h : Sink.Keeps I) : Sink.Keeps fun c : Closing P σ => I c.inner where
  close := keeps_shut hpolicy
  writeU8 v := keeps_whenOpen fun c hc => h.writeU8 v c.inner hc
  flush := keeps_whenOpen fun c hc => h.flush c.inner hc
  writeBytes bytes := keeps_whenOpen fun c hc => h.writeBytes bytes c.inner hc
  writeUnits units := keeps_whenOpen fun c hc => h.writeUnits units c.inner hc
  drain := keeps_whenOpenWith fun c r hc => h.drain (c.inner, r) hc

end Closing

/-! ## Chains -/

namespace Chain

variable [ClosePolicy P σ] {J : Chain P σ → Prop} {settle : Action σ Unit}

/-- What leaving a member and using the active one keep, using as many as it takes keeps. -/
theorem keeps_pull (hleave : Keeps J (leave settle)) {x : Action σ α}
    (hx : Keeps J (onActive x)) : Keeps J (pull settle x) := by
  refine (Keeps.gets _).bind fun ahead => .repeatUntil (hx.attempt.bind fun answer => ?_)
    (.fail _) ahead
  rcases answer with fault | a
  · cases fault with
    | endOfStream => exact hleave.bind fun _ => .pure none
    | _ => exact .fail _
  · exact .pure (some a)

/-- One turn of a bulk operation over the members of a chain. -/
def spreadTurn (settle : Action σ Unit) (bulk : Action (σ × Region) Unit) :
    Action (Chain P σ × Region) (Option Unit) := do
  if ← gets fun (_, region) => region.hasRemaining then
    onActiveWith bulk
    if ← gets fun (_, region) => region.hasRemaining then
      onFirst (leave settle)
      pure none
    else
      pure (some ())
  else
    pure (some ())

section Spread

variable {K : Chain P σ × Region → Prop} {bulk : Action (σ × Region) Unit}
  (hleave : Keeps K (onFirst (leave settle))) (hbulk : Keeps K (onActiveWith bulk))
include hleave hbulk

theorem keeps_spreadTurn : Keeps K (spreadTurn settle bulk) := by
  refine (Keeps.gets _).bind fun more => ?_
  cases more with
  | false => exact .pure (some ())
  | true =>
    refine hbulk.bind fun _ => (Keeps.gets _).bind fun more => ?_
    cases more with
    | false => exact .pure (some ())
    | true => exact hleave.bind fun _ => .pure none

/-- A bulk operation over the members takes turns. -/
theorem keeps_spread : Keeps K (spread settle bulk) :=
  (Keeps.gets _).bind fun ahead => .repeatUntil (keeps_spreadTurn hleave hbulk) (.pure ()) ahead

end Spread

theorem keeps_leaveEach (hleave : Keeps J (leave settle)) (n : Nat) (first : Option Fault) :
    Keeps J (leaveEach settle n first) := by
  induction n generalizing first with
  | zero => exact .pure first
  | succ n ih =>
    refine hleave.attempt.bind fun answer => ?_
    cases answer with
    | ok _ => exact ih first
    | error fault => exact ih _

/-- Closing puts the flag up, leaves all members and closes the last one. -/
theorem ends_finish_of_keeps {close : Action σ Unit} (hleave : Keeps J (leave settle))
    (hlast : Keeps J (closeLast close)) {c : Chain P σ} (hdone : c.closed = true → J c)
    (hfresh : J { c with closed := true }) : (finish settle close).Ends c fun _ d => J d := by
  rw [ends_finish]
  by_cases hclosed : c.closed = true
  · rw [if_pos hclosed]
    exact hdone hclosed
  rw [if_neg hclosed]
  refine (keeps_leaveEach hleave _ none _ hfresh).mono ?_
  rintro answer d hd
  rcases answer with fault | _ | fault
  · exact hd
  · exact hlast d hd
  · exact hlast d hd

theorem keeps_source [Source σ] (hclose : Keeps J (Closeable.close : Action (Chain P σ) Unit))
    (hleave : Keeps J (leave (pure ()))) (hread : Keeps J (onActive Source.readU8))
    (hfill : Keeps (fun p => J p.1) (onActiveWith Source.fill)) : Source.Keeps J :=
  .of_readU8 hclose (keeps_pull hleave hread) (keeps_spread hleave.onFirst hfill) rfl fun _ => rfl

theorem keeps_sink [Sink σ] (hclose : Keeps J (Closeable.close : Action (Chain P σ) Unit))
    (hleave : Keeps J (leave Sink.flush)) (hwrite : ∀ v, Keeps J (onActive (Sink.writeU8 v)))
    (hflush : Keeps J (onActive Sink.flush))
    (hdrain : Keeps (fun p => J p.1) (onActiveWith Sink.drain)) : Sink.Keeps J := by
  refine .of_writeU8 hclose (fun v => keeps_pull hleave (hwrite v))
    ((Keeps.gets _).bind fun exhausted => ?_) (keeps_spread hleave.onFirst hdrain) (fun _ => rfl)
    fun _ => rfl
  cases exhausted with
  | true => exact .pure ()
  | false => exact hflush

end Chain

/-! ## Any layer -/

namespace Layer

variable {J : Layer P L σ → Prop}

/-- An operation on a layer ends in a certain way if it does for each kind of them. -/
theorem ends_act {Q : Except Fault α → Layer P L σ → Prop} {endpoint : Action L α}
    {quota : Action (Quota σ) α} {closing : Action (Closing P σ) α} {chain : Action (Chain P σ) α}
    {traced : Action (Traced σ) α} {relay : Action (Relay σ) α}
    (hendpoint : ∀ s, J (.endpoint s) → endpoint.Ends s fun answer t => Q answer (.endpoint t))
    (hquota : ∀ s, J (.quota s) → quota.Ends s fun answer t => Q answer (.quota t))
    (hclosing : ∀ s, J (.closing s) → closing.Ends s fun answer t => Q answer (.closing t))
    (hchain : ∀ s, J (.chain s) → chain.Ends s fun answer t => Q answer (.chain t))
    (htraced : ∀ s, J (.traced s) → traced.Ends s fun answer t => Q answer (.traced t))
    (hrelay : ∀ s, J (.relay s) → relay.Ends s fun answer t => Q answer (.relay t)) :
    ∀ s, J s → (act endpoint quota closing chain traced relay).Ends s Q
  | .endpoint s, hs => hendpoint s hs
  | .quota s, hs => hquota s hs
  | .closing s, hs => hclosing s hs
  | .chain s, hs => hchain s hs
  | .traced s, hs => htraced s hs
  | .relay s, hs => hrelay s hs

theorem ends_actWith {K : Layer P L σ × ρ → Prop} {Q : Except Fault α → Layer P L σ × ρ → Prop}
    {endpoint : Action (L × ρ) α} {quota : Action (Quota σ × ρ) α}
    {closing : Action (Closing P σ × ρ) α} {chain : Action (Chain P σ × ρ) α}
    {traced : Action (Traced σ × ρ) α} {relay : Action (Relay σ × ρ) α}
    (hendpoint : ∀ p, K (.endpoint p.1, p.2) →
      endpoint.Ends p fun answer q => Q answer (.endpoint q.1, q.2))
    (hquota : ∀ p, K (.quota p.1, p.2) → quota.Ends p fun answer q => Q answer (.quota q.1, q.2))
    (hclosing : ∀ p, K (.closing p.1, p.2) →
      closing.Ends p fun answer q => Q answer (.closing q.1, q.2))
    (hchain : ∀ p, K (.chain p.1, p.2) → chain.Ends p fun answer q => Q answer (.chain q.1, q.2))
    (htraced : ∀ p, K (.traced p.1, p.2) →
      traced.Ends p fun answer q => Q answer (.traced q.1, q.2))
    (hrelay : ∀ p, K (.relay p.1, p.2) → relay.Ends p fun answer q => Q answer (.relay q.1, q.2)) :
    ∀ p, K p → (actWith endpoint quota closing chain traced relay).Ends p Q
  | (.endpoint s, a), hs => hendpoint (s, a) hs
  | (.quota s, a), hs => hquota (s, a) hs
  | (.closing s, a), hs => hclosing (s, a) hs
  | (.chain s, a), hs => hchain (s, a) hs
  | (.traced s, a), hs => htraced (s, a) hs
  | (.relay s, a), hs => hrelay (s, a) hs

variable [ClosePolicy P σ]

theorem keeps_source [Source L] [Source σ] (he : Source.Keeps fun s => J (.endpoint s))
    (hq : Source.Keeps fun s => J (.quota s)) (hc : Source.Keeps fun s => J (.closing s))
    (hn : Source.Keeps fun s => J (.chain s)) (ht : Source.Keeps fun s => J (.traced s))
    (hr : Source.Keeps fun s => J (.relay s)) : Source.Keeps J where
  close := ends_act he.close hq.close hc.close hn.close ht.close hr.close
  readU8 := ends_act he.readU8 hq.readU8 hc.readU8 hn.readU8 ht.readU8 hr.readU8
  readBytes := ends_actWith he.readBytes hq.readBytes hc.readBytes hn.readBytes ht.readBytes
    hr.readBytes
  readUnits n := ends_actWith (he.readUnits n) (hq.readUnits n) (hc.readUnits n) (hn.readUnits n)
    (ht.readUnits n) (hr.readUnits n)
  fill := ends_actWith he.fill hq.fill hc.fill hn.fill ht.fill hr.fill

theorem keeps_sink [Sink L] [Sink σ] (he : Sink.Keeps fun s => J (.endpoint s))
    (hq : Sink.Keeps fun s => J (.quota s)) (hc : Sink.Keeps fun s => J (.closing s))
    (hn : Sink.Keeps fun s => J (.chain s)) (ht : Sink.Keeps fun s => J (.traced s))
    (hr : Sink.Keeps fun s => J (.relay s)) : Sink.Keeps J where
  close := ends_act he.close hq.close hc.close hn.close ht.close hr.close
  writeU8 v := ends_act (he.writeU8 v) (hq.writeU8 v) (hc.writeU8 v) (hn.writeU8 v) (ht.writeU8 v)
    (hr.writeU8 v)
  flush := ends_act he.flush hq.flush hc.flush hn.flush ht.flush hr.flush
  writeBytes bs := ends_act (he.writeBytes bs) (hq.writeBytes bs) (hc.writeBytes bs)
    (hn.writeBytes bs) (ht.writeBytes bs) (hr.writeBytes bs)
  writeUnits us := ends_act (he.writeUnits us) (hq.writeUnits us) (hc.writeUnits us)
    (hn.writeUnits us) (ht.writeUnits us) (hr.writeUnits us)
  drain := ends_actWith he.drain hq.drain hc.drain hn.drain ht.drain hr.drain

end Layer

/-! ## Devices -/

/-- One turn of a loop that moves bytes between a device and a window, given how they are moved
once, and what it means that none are, or that the device fails. -/
def deviceTurn (once : Action (D × Region) (Except IoError Nat))
    (stop : Action (D × Region) (Option Unit))
    (onError : IoError → Action (D × Region) (Option Unit)) :
    Action (D × Region) (Option Unit) := do
  if ← gets fun (_, region) => region.hasRemaining then
    match ← once with
    | .ok 0 => stop
    | .ok _ => pure none
    | .error e => if e.kind = .interrupted then pure none else onError e
  else
    pure (some ())

theorem keeps_deviceTurn {K : D × Region → Prop} {once : Action (D × Region) (Except IoError Nat)}
    {stop : Action (D × Region) (Option Unit)}
    {onError : IoError → Action (D × Region) (Option Unit)} (honce : Keeps K once)
    (hstop : Keeps K stop) (herror : ∀ e, Keeps K (onError e)) :
    Keeps K (deviceTurn once stop onError) := by
  refine (Keeps.gets _).bind fun more => ?_
  cases more with
  | false => exact .pure (some ())
  | true =>
    refine honce.bind fun answer => ?_
    rcases answer with e | _ | count
    · by_cases hkind : e.kind = .interrupted
      · simp only [hkind, if_true]
        exact .pure none
      · simp only [hkind, if_false]
        exact herror e
    · exact hstop
    · exact .pure none

/-! ## Endpoints -/

namespace SourceEnd

variable {J : SourceEnd D S → Prop}

/-- An operation on an endpoint ends in a certain way if it does for memory, devices and streams
from outside. -/
theorem ends_act {Q : Except Fault α → SourceEnd D S → Prop} {memory : Action MemorySource α}
    {device : Action (DeviceSource D) α} {outside : Action S α}
    (hmemory : ∀ s, J (.memory s) → memory.Ends s fun answer t => Q answer (.memory t))
    (hdevice : ∀ s, J (.device s) → device.Ends s fun answer t => Q answer (.device t))
    (houtside : ∀ s, J (.outside s) → outside.Ends s fun answer t => Q answer (.outside t)) :
    ∀ s, J s → (act memory device outside).Ends s Q
  | .memory s, hs => hmemory s hs
  | .device s, hs => hdevice s hs
  | .outside s, hs => houtside s hs

theorem ends_actWith {K : SourceEnd D S × ρ → Prop}
    {Q : Except Fault α → SourceEnd D S × ρ → Prop} {memory : Action (MemorySource × ρ) α}
    {device : Action (DeviceSource D × ρ) α} {outside : Action (S × ρ) α}
    (hmemory : ∀ p, K (.memory p.1, p.2) →
      memory.Ends p fun answer q => Q answer (.memory q.1, q.2))
    (hdevice : ∀ p, K (.device p.1, p.2) →
      device.Ends p fun answer q => Q answer (.device q.1, q.2))
    (houtside : ∀ p, K (.outside p.1, p.2) →
      outside.Ends p fun answer q => Q answer (.outside q.1, q.2)) :
    ∀ p, K p → (actWith memory device outside).Ends p Q
  | (.memory s, a), hs => hmemory (s, a) hs
  | (.device s, a), hs => hdevice (s, a) hs
  | (.outside s, a), hs => houtside (s, a) hs

theorem keeps_source [InputDevice D] [Source S] (hm : Source.Keeps fun s => J (.memory s))
    (hd : Source.Keeps fun s => J (.device s)) (ho : Source.Keeps fun s => J (.outside s)) :
    Source.Keeps J where
  close := ends_act hm.close hd.close ho.close
  readU8 := ends_act hm.readU8 hd.readU8 ho.readU8
  readBytes := ends_actWith hm.readBytes hd.readBytes ho.readBytes
  readUnits n := ends_actWith (hm.readUnits n) (hd.readUnits n) (ho.readUnits n)
  fill := ends_actWith hm.fill hd.fill ho.fill

end SourceEnd

namespace SinkEnd

variable {J : SinkEnd D S → Prop}

theorem ends_act {Q : Except Fault α → SinkEnd D S → Prop} {memory : Action MemorySink α}
    {growing : Action GrowingSink α} {hashing : Action HashingSink α}
    {device : Action (DeviceSink D) α} {outside : Action S α}
    (hmemory : ∀ s, J (.memory s) → memory.Ends s fun answer t => Q answer (.memory t))
    (hgrowing : ∀ s, J (.growing s) → growing.Ends s fun answer t => Q answer (.growing t))
    (hhashing : ∀ s, J (.hashing s) → hashing.Ends s fun answer t => Q answer (.hashing t))
    (hdevice : ∀ s, J (.device s) → device.Ends s fun answer t => Q answer (.device t))
    (houtside : ∀ s, J (.outside s) → outside.Ends s fun answer t => Q answer (.outside t)) :
    ∀ s, J s → (act memory growing hashing device outside).Ends s Q
  | .memory s, hs => hmemory s hs
  | .growing s, hs => hgrowing s hs
  | .hashing s, hs => hhashing s hs
  | .device s, hs => hdevice s hs
  | .outside s, hs => houtside s hs

theorem ends_actWith {K : SinkEnd D S × ρ → Prop} {Q : Except Fault α → SinkEnd D S × ρ → Prop}
    {memory : Action (MemorySink × ρ) α} {growing : Action (GrowingSink × ρ) α}
    {hashing : Action (HashingSink × ρ) α} {device : Action (DeviceSink D × ρ) α}
    {outside : Action (S × ρ) α}
    (hmemory : ∀ p, K (.memory p.1, p.2) →
      memory.Ends p fun answer q => Q answer (.memory q.1, q.2))
    (hgrowing : ∀ p, K (.growing p.1, p.2) →
      growing.Ends p fun answer q => Q answer (.growing q.1, q.2))
    (hhashing : ∀ p, K (.hashing p.1, p.2) →
      hashing.Ends p fun answer q => Q answer (.hashing q.1, q.2))
    (hdevice : ∀ p, K (.device p.1, p.2) →
      device.Ends p fun answer q => Q answer (.device q.1, q.2))
    (houtside : ∀ p, K (.outside p.1, p.2) →
      outside.Ends p fun answer q => Q answer (.outside q.1, q.2)) :
    ∀ p, K p → (actWith memory growing hashing device outside).Ends p Q
  | (.memory s, a), hs => hmemory (s, a) hs
  | (.growing s, a), hs => hgrowing (s, a) hs
  | (.hashing s, a), hs => hhashing (s, a) hs
  | (.device s, a), hs => hdevice (s, a) hs
  | (.outside s, a), hs => houtside (s, a) hs

theorem keeps_sink [OutputDevice D] [Sink S] (hm : Sink.Keeps fun s => J (.memory s))
    (hg : Sink.Keeps fun s => J (.growing s)) (hh : Sink.Keeps fun s => J (.hashing s))
    (hd : Sink.Keeps fun s => J (.device s)) (ho : Sink.Keeps fun s => J (.outside s)) :
    Sink.Keeps J where
  close := ends_act hm.close hg.close hh.close hd.close ho.close
  writeU8 v := ends_act (hm.writeU8 v) (hg.writeU8 v) (hh.writeU8 v) (hd.writeU8 v) (ho.writeU8 v)
  flush := ends_act hm.flush hg.flush hh.flush hd.flush ho.flush
  writeBytes bs := ends_act (hm.writeBytes bs) (hg.writeBytes bs) (hh.writeBytes bs)
    (hd.writeBytes bs) (ho.writeBytes bs)
  writeUnits us := ends_act (hm.writeUnits us) (hg.writeUnits us) (hh.writeUnits us)
    (hd.writeUnits us) (ho.writeUnits us)
  drain := ends_actWith hm.drain hg.drain hh.drain hd.drain ho.drain

end SinkEnd

end ByteFlow
