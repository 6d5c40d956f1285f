import ByteFlow.Proofs.Quota.Crossing

/-!
# Stacks of quotas

Layers that stand on each other, with one stream at the foot, are a stack.  What goes through the
foot goes through every layer, so it is counted by every quota in the stack.

The stream at the foot has to tell how single bytes and bulk operations went, and it has no bound
of its own.  A layer over a stack tells it then as well, and its bound is that of the outermost
quota.

## Main definitions

* `Tree.StandsOn`, `Tree.quotas` — stacks, and what may still pass each of their quotas.
* `Charged quotas n quotas'` — so many bytes were counted by each of the quotas.
* `Charges I quotas` — this is so for whatever goes through.
* `CandidSource`, `CandidSink` — streams at the foot.
* `Source.Candid`, `Sink.Candid` — what holds of the streams in a stack.
* `Tree.candid_source`, `Tree.candid_sink` — all stacks.
-/

namespace ByteFlow

open ByteFlow.Action

variable {P L σ ρ α : Type}

/-! ## What a stack is -/

/-- The layer is a stack, given which endpoints may be the foot and which streams are stacks. -/
def Layer.StandsOn (foot : L → Prop) (below : σ → Prop) : Layer P L σ → Prop
  | .endpoint s => foot s
  | .quota q => below q.inner
  | .closing c => below c.inner
  | .chain _ => False
  | .traced t => below t.inner
  | .relay t => below t.inner

/-- The tree is a stack on an endpoint that may be the foot of one. -/
def Tree.StandsOn (foot : L → Prop) : {n : Nat} → Tree P L n → Prop
  | 0, t => Empty.elim t
  | _ + 1, t => Layer.StandsOn foot (StandsOn foot) t

/-- What may still pass the quotas of a layer, given the ones below it. -/
def Layer.quotas (below : σ → List Nat) : Layer P L σ → List Nat
  | .endpoint _ => []
  | .quota q => q.remaining :: below q.inner
  | .closing c => below c.inner
  | .chain _ => []
  | .traced t => below t.inner
  | .relay t => below t.inner

/-- What may still pass the quotas of a stack, the outermost one first. -/
def Tree.quotas : {n : Nat} → Tree P L n → List Nat
  | 0, t => Empty.elim t
  | _ + 1, t => Layer.quotas quotas t

/-- So many bytes were counted by each of the quotas, and none of them had too little left. -/
def Charged (quotas : List Nat) (n : Nat) (quotas' : List Nat) : Prop :=
  (∀ quota ∈ quotas, n ≤ quota) ∧ quotas' = quotas.map (· - n)

/-- What goes through a stack leaves a stack, and is counted by all of its quotas. -/
def Charges [Meter σ] (I : σ → Prop) (quotas : σ → List Nat) : Prop :=
  ∀ {s t : σ} {bs : List UInt8}, I s → Moved s bs t → I t ∧ Charged (quotas s) bs.length (quotas t)

theorem Layer.charges [Meter L] [Meter σ] {foot : L → Prop} {I : σ → Prop} {quotas : σ → List Nat}
    (hfoot : ∀ {s t : L} {bs : List UInt8}, foot s → Moved s bs t → foot t)
    (h : Charges I quotas) :
    Charges (Layer.StandsOn foot I : Layer P L σ → Prop) (Layer.quotas quotas) := by
  intro s t bs hs hmoved
  revert hs
  refine moved_cases (motive := fun s t => StandsOn foot I s → StandsOn foot I t ∧
    Charged (Layer.quotas quotas s) bs.length (Layer.quotas quotas t)) hmoved
    ?endpoint ?quota ?closing ?chain ?traced ?relay
  case endpoint => exact fun s t hst hs => ⟨hfoot hs hst, List.forall_mem_nil _, rfl⟩
  case quota =>
    rintro s t ⟨hst, hcount⟩ hs
    obtain ⟨ht, hle, heq⟩ := h hs hst
    refine ⟨ht, List.forall_mem_cons.2 ⟨by omega, hle⟩, ?_⟩
    have hleft : t.remaining = s.remaining - bs.length := by omega
    rw [Layer.quotas, heq, hleft]
    rfl
  case closing => exact fun s t hst hs => h hs hst
  case chain => exact fun s t _ hs => hs.elim
  case traced => exact fun s t hst hs => h hs hst
  case relay => exact fun s t hst hs => h hs hst

theorem Tree.charges [Meter L] {foot : L → Prop}
    (hfoot : ∀ {s t : L} {bs : List UInt8}, foot s → Moved s bs t → foot t) (n : Nat) :
    Charges (Tree.StandsOn foot : Tree P L n → Prop) Tree.quotas := by
  induction n with
  | zero => exact fun {s} => Empty.elim s
  | succ n ih => exact Layer.charges hfoot ih

/-- Whether or not the flag is up. -/
theorem Closing.ends_whenOpen_of {c : Closing P σ} {x : Action σ α}
    {Q : Except Fault α → Closing P σ → Prop} (hrefused : Q (.error .closed) c)
    (hopen : x.Ends c.inner fun answer s => Q answer { c with inner := s }) :
    (whenOpen x).Ends c Q := by
  cases hclosed : c.closed with
  | false => rwa [ends_whenOpen hclosed]
  | true => rwa [ends_whenOpen_of_closed hclosed]

theorem Closing.ends_whenOpenWith_of {c : Closing P σ} {x : Action (σ × ρ) α} {a : ρ}
    {Q : Except Fault α → Closing P σ × ρ → Prop} (hrefused : Q (.error .closed) (c, a))
    (hopen : x.Ends (c.inner, a) fun answer p => Q answer ({ c with inner := p.1 }, p.2)) :
    (whenOpenWith x).Ends (c, a) Q := by
  cases hclosed : c.closed with
  | false => rwa [ends_whenOpenWith hclosed]
  | true => rwa [ends_whenOpenWith_of_closed hclosed]

/-! ## Sources -/

/-- A source that tells how a byte and a fill went, and does not come to have a bound. -/
class CandidSource (L : Type) [Source L] [Meter L] : Prop where
  bound_eq_none : ∀ {s t : L} {bs : List UInt8},
    Moved s bs t → Source.bound s = none → Source.bound t = none
  readU8 : Gives (fun _ => True) (Source.readU8 : Action L UInt8) 1 fun bs => bs.headD 0
  fill : Pours (Source.fill : Action (L × Region) Unit)

/-- The streams of which `I` holds tell how their operations went.  The bound is that of the
outermost quota.  Some operations need a quota for that. -/
structure Source.Candid [Source σ] [Meter σ] (I : σ → Prop) (quotas : σ → List Nat) : Prop where
  bound_eq : ∀ {s : σ}, I s → Source.bound s = (quotas s).head?
  readU8 : Gives I (Source.readU8 : Action σ UInt8) 1 fun bs => bs.headD 0
  fill : ∀ {s : σ} {r : Region}, I s → r.Writable →
    (Source.fill : Action (σ × Region) Unit).Ends (s, r) fun _ p => Poured s r p
  readBytes : ∀ {s : σ} {r : Region}, I s → quotas s ≠ [] → r.Writable →
    (Source.readBytes : Action (σ × Region) Unit).Ends (s, r) fun _ p => Poured s r p
  readUnits : ∀ {s : σ} (n : Nat) (units : Array UInt16), I s → quotas s ≠ [] →
    (Source.readUnits n : Action (σ × Array UInt16) Unit).Ends (s, units) (Gathered s n units)

/-- A byte that comes through a quota is counted. -/
theorem Quota.gives_counted [Meter σ] {I : σ → Prop} {x : Action σ α} {f : List UInt8 → α}
    (h : Gives I x 1 f) : Gives (fun q : Quota σ => I q.inner) (counted x) 1 f := by
  intro q hq
  rw [ends_counted]
  by_cases hzero : q.remaining = 0
  · rw [if_pos hzero]
    exact ⟨[], Meter.refl q, Nat.zero_lt_one⟩
  rw [if_neg hzero]
  refine (h q.inner hq).mono ?_
  rintro answer s ⟨bs, hmoved, htold⟩
  cases answer with
  | error fault =>
    have hlength : bs.length < 1 := htold
    exact ⟨bs, ⟨hmoved, by simp only; omega⟩, htold⟩
  | ok a =>
    have hlength := htold.1
    exact ⟨bs, ⟨hmoved, by simp only; omega⟩, htold⟩

theorem Closing.gives_whenOpen [Meter σ] {I : σ → Prop} {x : Action σ α} {f : List UInt8 → α}
    (h : Gives I x 1 f) : Gives (fun c : Closing P σ => I c.inner) (whenOpen x) 1 f :=
  fun c hc => ends_whenOpen_of ⟨[], Meter.refl c, Nat.zero_lt_one⟩ (h c.inner hc)

section Layers

variable [Source σ] [Meter σ] {I : σ → Prop} {quotas : σ → List Nat}

/-- A quota makes do with single bytes and fills. -/
theorem Quota.candid_source (hcharges : Charges I quotas) (h : Source.Candid I quotas) :
    Source.Candid (fun q : Quota σ => I q.inner) fun q => q.remaining :: quotas q.inner where
  bound_eq _ := rfl
  readU8 := gives_counted h.readU8
  fill hq hr := poured_clipped (fun _ hr => h.fill hq hr) _ hr
  readBytes {q r} hq _ hr := by
    change (Source.fillCompletely (clipped Source.fill)).Ends (q, r) _
    rw [Source.ends_fillCompletely]
    exact poured_clipped (fun _ hr => h.fill hq hr) _ hr
  readUnits n units hq _ :=
    (gives_counted h.readU8).readUnits (fun hq hmoved => (hcharges hq (And.left hmoved)).1) n units
      hq

theorem Closing.candid_source [ClosePolicy P σ] (h : Source.Candid I quotas) :
    Source.Candid (fun c : Closing P σ => I c.inner) fun c => quotas c.inner where
  bound_eq := h.bound_eq
  readU8 := gives_whenOpen h.readU8
  fill {c r} hc hr := ends_whenOpenWith_of (c := c) (Poured.refl c r) (h.fill hc hr)
  readBytes {c r} hc hquotas hr :=
    ends_whenOpenWith_of (c := c) (Poured.refl c r) (h.readBytes hc hquotas hr)
  readUnits {c} n units hc hquotas :=
    ends_whenOpenWith_of (c := c)
      ⟨[], Meter.refl c, by simp [unitsOf], Nat.zero_le _, by simp⟩ (h.readUnits n units hc hquotas)

theorem Traced.candid_source (h : Source.Candid I quotas) :
    Source.Candid (fun t : Traced σ => I t.inner) fun t => quotas t.inner where
  bound_eq := h.bound_eq
  readU8 t ht := h.readU8 t.inner ht
  fill ht hr := h.fill ht hr
  readBytes ht hquotas hr := h.readBytes ht hquotas hr
  readUnits n units ht hquotas := h.readUnits n units ht hquotas

theorem Relay.candid_source (h : Source.Candid I quotas) :
    Source.Candid (fun t : Relay σ => I t.inner) fun t => quotas t.inner where
  bound_eq := h.bound_eq
  readU8 t ht := h.readU8 t.inner ht
  fill ht hr := h.fill ht hr
  readBytes ht hquotas hr := h.readBytes ht hquotas hr
  readUnits n units ht hquotas := h.readUnits n units ht hquotas

theorem Layer.candid_source [Source L] [Meter L] [CandidSource L] [ClosePolicy P σ]
    (hcharges : Charges I quotas) (h : Source.Candid I quotas) :
    Source.Candid (Layer.StandsOn (fun s : L => Source.bound s = none) I : Layer P L σ → Prop)
      (Layer.quotas quotas) where
  bound_eq {s} hs := by
    cases s with
    | endpoint s => exact hs
    | quota s => rfl
    | closing s => exact h.bound_eq hs
    | chain s => exact hs.elim
    | traced s => exact h.bound_eq hs
    | relay s => exact h.bound_eq hs
  readU8 s hs := by
    cases s with
    | endpoint s => exact CandidSource.readU8 s trivial
    | quota s => exact (Quota.candid_source hcharges h).readU8 s hs
    | closing s => exact (Closing.candid_source h).readU8 s hs
    | chain s => exact hs.elim
    | traced s => exact (Traced.candid_source h).readU8 s hs
    | relay s => exact (Relay.candid_source h).readU8 s hs
  fill {s r} hs hr := by
    cases s with
    | endpoint s => exact CandidSource.fill s r hr
    | quota s => exact (Quota.candid_source hcharges h).fill (s := s) hs hr
    | closing s => exact (Closing.candid_source h).fill (s := s) hs hr
    | chain s => exact hs.elim
    | traced s => exact (Traced.candid_source h).fill (s := s) hs hr
    | relay s => exact (Relay.candid_source h).fill (s := s) hs hr
  readBytes {s r} hs hquotas hr := by
    cases s with
    | endpoint s => exact absurd rfl hquotas
    | quota s => exact (Quota.candid_source hcharges h).readBytes (s := s) hs hquotas hr
    | closing s => exact (Closing.candid_source h).readBytes (s := s) hs hquotas hr
    | chain s => exact hs.elim
    | traced s => exact (Traced.candid_source h).readBytes (s := s) hs hquotas hr
    | relay s => exact (Relay.candid_source h).readBytes (s := s) hs hquotas hr
  readUnits {s} n units hs hquotas := by
    cases s with
    | endpoint s => exact absurd rfl hquotas
    | quota s => exact (Quota.candid_source hcharges h).readUnits (s := s) n units hs hquotas
    | closing s => exact (Closing.candid_source h).readUnits (s := s) n units hs hquotas
    | chain s => exact hs.elim
    | traced s => exact (Traced.candid_source h).readUnits (s := s) n units hs hquotas
    | relay s => exact (Relay.candid_source h).readUnits (s := s) n units hs hquotas

end Layers

/-- Every stack on a source without a bound tells how its operations went. -/
theorem Tree.candid_source [Source L] [Meter L] [CandidSource L] [SourcePolicy P] (n : Nat) :
    Source.Candid (Tree.StandsOn (fun s : L => Source.bound s = none) : Tree P L n → Prop)
      Tree.quotas := by
  induction n with
  | zero =>
    exact ⟨fun {s} => Empty.elim s, fun s => Empty.elim s, fun {s} => Empty.elim s,
      fun {s} => Empty.elim s, fun {s} => Empty.elim s⟩
  | succ n ih =>
    exact Layer.candid_source
      (Tree.charges (fun hs hmoved => CandidSource.bound_eq_none hmoved hs) n) ih

/-- A stack with a quota in it gives what its reply tells of. -/
theorem Source.Candid.ends_perform [Source σ] [Meter σ] {I : σ → Prop} {quotas : σ → List Nat}
    (h : Source.Candid I quotas) (hcharges : Charges I quotas) {s : σ} (hs : I s)
    (hquotas : quotas s ≠ []) (request : Request) :
    request.perform.Ends s fun answer t =>
      ∃ reply bs, answer = .ok reply ∧ request.Gave reply bs ∧ Moved s bs t := by
  cases request with
  | scalar kind =>
    have hread : Gives I (kind.read : Action σ kind.Val) kind.width kind.decode := by
      rw [kind.read_eq]
      exact (h.readU8.take (fun hs hmoved => (hcharges hs hmoved).1) kind.width).map kind.decode
    rw [Request.perform, ends_attempt_bind]
    refine (hread s hs).mono ?_
    rintro answer t ⟨bs, hmoved, htold⟩
    exact ⟨_, bs, rfl, .scalar htold, hmoved⟩
  | bytes region writable =>
    simp only [Request.perform, bind_pure_comp, ends_map, ends_alongside, ends_attempt]
    refine (h.readBytes hs hquotas writable).mono ?_
    rintro answer ⟨t, q⟩ ⟨bs, hle, hmoved, rfl⟩
    exact ⟨_, bs, rfl, .bytes hle, hmoved⟩
  | units n inHand =>
    simp only [Request.perform, bind_pure_comp, ends_map, ends_alongside, ends_attempt]
    refine (h.readUnits n inHand hs hquotas).mono ?_
    rintro answer ⟨t, units⟩ ⟨bs, hmoved, rfl, hle, hall⟩
    exact ⟨_, bs, rfl, .units hle hall, hmoved⟩
  | fill region writable =>
    simp only [Request.perform, bind_pure_comp, ends_map, ends_alongside, ends_attempt]
    refine (h.fill hs writable).mono ?_
    rintro answer ⟨t, q⟩ ⟨bs, hle, hmoved, rfl⟩
    exact ⟨_, bs, rfl, .fill hle, hmoved⟩

/-! ## Sinks -/

/-- A sink that tells how a byte and a drain went, and does not come to have a bound. -/
class CandidSink (L : Type) [Sink L] [Meter L] : Prop where
  bound_eq_none : ∀ {s t : L} {bs : List UInt8},
    Moved s bs t → Sink.bound s = none → Sink.bound t = none
  writeU8 : Sends (fun _ => True) (Sink.writeU8 : UInt8 → Action L Unit)
  drain : Drains (Sink.drain : Action (L × Region) Unit)

/-- The streams of which `I` holds tell how their operations went.  The bound is that of the
outermost quota.  Some operations need a quota for that. -/
structure Sink.Candid [Sink σ] [Meter σ] (I : σ → Prop) (quotas : σ → List Nat) : Prop where
  bound_eq : ∀ {s : σ}, I s → Sink.bound s = (quotas s).head?
  writeU8 : Sends I (Sink.writeU8 : UInt8 → Action σ Unit)
  drain : ∀ {s : σ} {r : Region}, I s → r.WellFormed →
    (Sink.drain : Action (σ × Region) Unit).Ends (s, r) fun _ p => Drained s r p
  writeBytes : ∀ {s : σ} (bytes : Bytes), I s → quotas s ≠ [] →
    (Sink.writeBytes bytes : Action σ Unit).Ends s fun answer t =>
      ∃ front, Moved s front t ∧ Part bytes.list answer front
  writeUnits : ∀ {s : σ} (units : Array UInt16), I s → quotas s ≠ [] →
    (Sink.writeUnits units : Action σ Unit).Ends s fun answer t =>
      ∃ front, Moved s front t ∧ Part (unitBytes units.toList) answer front

/-- A byte that goes through a quota is counted. -/
theorem Quota.sends_counted [Meter σ] {I : σ → Prop} {put : UInt8 → Action σ Unit}
    (h : Sends I put) : Sends (fun q : Quota σ => I q.inner) fun b => counted (put b) := by
  intro q b hq
  rw [ends_counted]
  by_cases hzero : q.remaining = 0
  · rw [if_pos hzero]
    exact Meter.refl q
  rw [if_neg hzero]
  refine (h q.inner b hq).mono ?_
  intro answer s hmoved
  cases answer with
  | error fault => exact ⟨hmoved, rfl⟩
  | ok _ => exact ⟨hmoved, Nat.sub_add_cancel (Nat.pos_of_ne_zero hzero)⟩

theorem Closing.sends_whenOpen [Meter σ] {I : σ → Prop} {put : UInt8 → Action σ Unit}
    (h : Sends I put) : Sends (fun c : Closing P σ => I c.inner) fun b => whenOpen (put b) :=
  fun c b hc => ends_whenOpen_of (Meter.refl c) (h c.inner b hc)

section Layers

variable [Sink σ] [Meter σ] {I : σ → Prop} {quotas : σ → List Nat}

/-- A quota makes do with single bytes and drains. -/
theorem Quota.candid_sink (hcharges : Charges I quotas) (h : Sink.Candid I quotas) :
    Sink.Candid (fun q : Quota σ => I q.inner) fun q => q.remaining :: quotas q.inner where
  bound_eq _ := rfl
  writeU8 := sends_counted h.writeU8
  drain hq hr := drained_clipped (fun _ hr => h.drain hq hr) _ hr
  writeBytes bytes hq _ :=
    Sink.handsOn_drainCompletely (fun _ hr => drained_clipped (fun _ hr => h.drain hq hr) _ hr)
      bytes
  writeUnits {q} units hq _ :=
    (sends_counted h.writeU8).writeUnits (fun hq hmoved => (hcharges hq (And.left hmoved)).1) units
      q hq

theorem Closing.candid_sink [ClosePolicy P σ] (h : Sink.Candid I quotas) :
    Sink.Candid (fun c : Closing P σ => I c.inner) fun c => quotas c.inner where
  bound_eq := h.bound_eq
  writeU8 := sends_whenOpen h.writeU8
  drain {c r} hc hr := ends_whenOpenWith_of (c := c) (Drained.refl c r) (h.drain hc hr)
  writeBytes {c} bytes hc hquotas :=
    ends_whenOpen_of (c := c) ⟨[], Meter.refl c, part_error ..⟩ (h.writeBytes bytes hc hquotas)
  writeUnits {c} units hc hquotas :=
    ends_whenOpen_of (c := c) ⟨[], Meter.refl c, part_error ..⟩ (h.writeUnits units hc hquotas)

theorem Traced.candid_sink (h : Sink.Candid I quotas) :
    Sink.Candid (fun t : Traced σ => I t.inner) fun t => quotas t.inner where
  bound_eq := h.bound_eq
  writeU8 t b ht := h.writeU8 t.inner b ht
  drain ht hr := h.drain ht hr
  writeBytes bytes ht hquotas := h.writeBytes bytes ht hquotas
  writeUnits units ht hquotas := h.writeUnits units ht hquotas

theorem Relay.candid_sink (h : Sink.Candid I quotas) :
    Sink.Candid (fun t : Relay σ => I t.inner) fun t => quotas t.inner where
  bound_eq := h.bound_eq
  writeU8 t b ht := h.writeU8 t.inner b ht
  drain ht hr := h.drain ht hr
  writeBytes bytes ht hquotas := h.writeBytes bytes ht hquotas
  writeUnits units ht hquotas := h.writeUnits units ht hquotas

theorem Layer.candid_sink [Sink L] [Meter L] [CandidSink L] [ClosePolicy P σ]
    (hcharges : Charges I quotas) (h : Sink.Candid I quotas) :
    Sink.Candid (Layer.StandsOn (fun s : L => Sink.bound s = none) I : Layer P L σ → Prop)
      (Layer.quotas quotas) where
  bound_eq {s} hs := by
    cases s with
    | endpoint s => exact hs
    | quota s => rfl
    | closing s => exact h.bound_eq hs
    | chain s => exact hs.elim
    | traced s => exact h.bound_eq hs
    | relay s => exact h.bound_eq hs
  writeU8 s b hs := by
    cases s with
    | endpoint s => exact CandidSink.writeU8 s b trivial
    | quota s => exact (Quota.candid_sink hcharges h).writeU8 s b hs
    | closing s => exact (Closing.candid_sink h).writeU8 s b hs
    | chain s => exact hs.elim
    | traced s => exact (Traced.candid_sink h).writeU8 s b hs
    | relay s => exact (Relay.candid_sink h).writeU8 s b hs
  drain {s r} hs hr := by
    cases s with
    | endpoint s => exact CandidSink.drain s r hr
    | quota s => exact (Quota.candid_sink hcharges h).drain (s := s) hs hr
    | closing s => exact (Closing.candid_sink h).drain (s := s) hs hr
    | chain s => exact hs.elim
    | traced s => exact (Traced.candid_sink h).drain (s := s) hs hr
    | relay s => exact (Relay.candid_sink h).drain (s := s) hs hr
  writeBytes {s} bytes hs hquotas := by
    cases s with
    | endpoint s => exact absurd rfl hquotas
    | quota s => exact (Quota.candid_sink hcharges h).writeBytes (s := s) bytes hs hquotas
    | closing s => exact (Closing.candid_sink h).writeBytes (s := s) bytes hs hquotas
    | chain s => exact hs.elim
    | traced s => exact (Traced.candid_sink h).writeBytes (s := s) bytes hs hquotas
    | relay s => exact (Relay.candid_sink h).writeBytes (s := s) bytes hs hquotas
  writeUnits {s} units hs hquotas := by
    cases s with
    | endpoint s => exact absurd rfl hquotas
    | quota s => exact (Quota.candid_sink hcharges h).writeUnits (s := s) units hs hquotas
    | closing s => exact (Closing.candid_sink h).writeUnits (s := s) units hs hquotas
    | chain s => exact hs.elim
    | traced s => exact (Traced.candid_sink h).writeUnits (s := s) units hs hquotas
    | relay s => exact (Relay.candid_sink h).writeUnits (s := s) units hs hquotas

end Layers

/-- Every stack on a sink without a bound tells how its operations went. -/
theorem Tree.candid_sink [Sink L] [Meter L] [CandidSink L] [SinkPolicy P] (n : Nat) :
    Sink.Candid (Tree.StandsOn (fun s : L => Sink.bound s = none) : Tree P L n → Prop)
      Tree.quotas := by
  induction n with
  | zero =>
    exact ⟨fun {s} => Empty.elim s, fun s => Empty.elim s, fun {s} => Empty.elim s,
      fun {s} => Empty.elim s, fun {s} => Empty.elim s⟩
  | succ n ih =>
    exact Layer.candid_sink
      (Tree.charges (fun hs hmoved => CandidSink.bound_eq_none hmoved hs) n) ih

/-- A stack with a quota in it takes what its receipt tells of. -/
theorem Sink.Candid.ends_perform [Sink σ] [Meter σ] {I : σ → Prop} {quotas : σ → List Nat}
    (h : Sink.Candid I quotas) (hcharges : Charges I quotas) {s : σ} (hs : I s)
    (hquotas : quotas s ≠ []) (offer : Offer) :
    offer.perform.Ends s fun answer t =>
      ∃ receipt bs, answer = .ok receipt ∧ offer.Took receipt bs ∧ Moved s bs t := by
  cases offer with
  | scalar kind v =>
    have hwrite : HandsOn I (kind.write v : Action σ Unit) (kind.encode v) := by
      rw [kind.write_eq]
      exact h.writeU8.writeList (fun hs hmoved => (hcharges hs hmoved).1) _
    rw [Offer.perform, ends_attempt_bind]
    refine (hwrite s hs).mono ?_
    rintro answer t ⟨front, hmoved, hpart⟩
    exact ⟨_, front, rfl, .written hpart, hmoved⟩
  | bytes data =>
    rw [Offer.perform, ends_attempt_bind]
    refine (h.writeBytes data hs hquotas).mono ?_
    rintro answer t ⟨front, hmoved, hpart⟩
    exact ⟨_, front, rfl, .written hpart, hmoved⟩
  | units us =>
    rw [Offer.perform, ends_attempt_bind]
    refine (h.writeUnits us hs hquotas).mono ?_
    rintro answer t ⟨front, hmoved, hpart⟩
    exact ⟨_, front, rfl, .written hpart, hmoved⟩
  | drain region wellFormed =>
    simp only [Offer.perform, bind_pure_comp, ends_map, ends_alongside, ends_attempt]
    refine (h.drain hs wellFormed).mono ?_
    rintro answer ⟨t, q⟩ ⟨n, hn, hmoved, rfl⟩
    exact ⟨_, _, rfl, .drained hn, hmoved⟩

end ByteFlow
