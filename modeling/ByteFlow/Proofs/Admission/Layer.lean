import ByteFlow.Proofs.Admission.Endpoint

/-!
# Stacks that let operations in

A layer says that it is closed only for a flag of its own, or when the stream under it says so.
So a stack of layers lets operations in if its endpoint does, as long as all flags in it are down.

## Main definitions

* `Closing.Accepting below c` — the flag of a wrapper and those under it are down.
* `Tree.Accepting foot t` — a stack over an accepting endpoint in which all flags are down.
* `Tree.admits_source`, `Tree.admits_sink` — such a stack lets operations in.
-/

namespace ByteFlow

open ByteFlow.Action

variable {P L σ ρ α : Type}

/-! ## Layers over one stream -/

section Wrappers

variable {I : σ → Prop}

namespace Quota

theorem admits_counted {x : Action σ α} (hx : Admits I x) :
    Admits (fun q : Quota σ => I q.inner) (counted x) := by
  intro q hq
  rw [ends_counted]
  by_cases hzero : q.remaining = 0
  · rw [if_pos hzero]
    exact ⟨by simp [Admitted], hq⟩
  · rw [if_neg hzero]
    refine (hx q.inner hq).mono ?_
    intro answer s hs
    cases answer with
    | ok a => exact hs
    | error fault => exact hs

theorem admits_clipped {bulk : Action (σ × Region) Unit} (hbulk : Admits (fun p => I p.1) bulk) :
    Admits (fun p : Quota σ × Region => I p.1.inner) (clipped bulk) := by
  rintro ⟨q, r⟩ hq
  rw [ends_clipped]
  by_cases hzero : q.remaining = 0
  · rw [if_pos hzero]
    exact ⟨trivial, hq⟩
  · rw [if_neg hzero]
    exact hbulk (q.inner, _) hq

theorem admits_source [Source σ] (h : Source.Admits I) :
    Source.Admits fun q : Quota σ => I q.inner :=
  .of_readU8 (admits_counted h.readU8) (admits_clipped h.fill) rfl fun _ => rfl

theorem admits_sink [Sink σ] (h : Sink.Admits I) : Sink.Admits fun q : Quota σ => I q.inner :=
  .of_writeU8 (fun v => admits_counted (h.writeU8 v)) (fun q hq => h.flush q.inner hq)
    (admits_clipped h.drain) (fun _ => rfl) fun _ => rfl

end Quota

theorem Traced.admits_source [Source σ] (h : Source.Admits I) :
    Source.Admits fun t : Traced σ => I t.inner where
  readU8 t ht := h.readU8 t.inner ht
  readBytes p hp := h.readBytes (p.1.inner, p.2) hp
  readUnits n p hp := h.readUnits n (p.1.inner, p.2) hp
  fill p hp := h.fill (p.1.inner, p.2) hp

theorem Traced.admits_sink [Sink σ] (h : Sink.Admits I) :
    Sink.Admits fun t : Traced σ => I t.inner where
  writeU8 v t ht := h.writeU8 v t.inner ht
  flush t ht := h.flush t.inner ht
  writeBytes bytes t ht := h.writeBytes bytes t.inner ht
  writeUnits units t ht := h.writeUnits units t.inner ht
  drain p hp := h.drain (p.1.inner, p.2) hp

theorem Relay.admits_source [Source σ] (h : Source.Admits I) :
    Source.Admits fun t : Relay σ => I t.inner where
  readU8 t ht := h.readU8 t.inner ht
  readBytes p hp := h.readBytes (p.1.inner, p.2) hp
  readUnits n p hp := h.readUnits n (p.1.inner, p.2) hp
  fill p hp := h.fill (p.1.inner, p.2) hp

theorem Relay.admits_sink [Sink σ] (h : Sink.Admits I) :
    Sink.Admits fun t : Relay σ => I t.inner where
  writeU8 v t ht := h.writeU8 v t.inner ht
  flush t ht := h.flush t.inner ht
  writeBytes bytes t ht := h.writeBytes bytes t.inner ht
  writeUnits units t ht := h.writeUnits units t.inner ht
  drain p hp := h.drain (p.1.inner, p.2) hp

namespace Closing

/-- The flag is down, and so it is in the stream under the wrapper. -/
def Accepting (below : σ → Prop) (c : Closing P σ) : Prop := c.closed = false ∧ below c.inner

theorem admits_whenOpen {x : Action σ α} (hx : Admits I x) :
    Admits (Accepting I) (whenOpen x : Action (Closing P σ) α) := by
  rintro c ⟨hopen, hinner⟩
  rw [ends_whenOpen hopen]
  refine (hx c.inner hinner).mono ?_
  rintro answer s ⟨hanswer, hs⟩
  exact ⟨hanswer, hopen, hs⟩

theorem admits_whenOpenWith {x : Action (σ × ρ) α} (hx : Admits (fun p => I p.1) x) :
    Admits (fun p => Accepting I p.1) (whenOpenWith x : Action (Closing P σ × ρ) α) := by
  rintro ⟨c, a⟩ ⟨hopen, hinner⟩
  rw [ends_whenOpenWith hopen]
  refine (hx (c.inner, a) hinner).mono ?_
  rintro answer p ⟨hanswer, hp⟩
  exact ⟨hanswer, hopen, hp⟩

variable [ClosePolicy P σ]

theorem admits_source [Source σ] (h : Source.Admits I) :
    Source.Admits (Accepting I : Closing P σ → Prop) :=
  ⟨admits_whenOpen h.readU8, admits_whenOpenWith h.readBytes,
    fun n => admits_whenOpenWith (h.readUnits n), admits_whenOpenWith h.fill⟩

theorem admits_sink [Sink σ] (h : Sink.Admits I) : Sink.Admits (Accepting I : Closing P σ → Prop) :=
  ⟨fun v => admits_whenOpen (h.writeU8 v), admits_whenOpen h.flush,
    fun bytes => admits_whenOpen (h.writeBytes bytes),
    fun units => admits_whenOpen (h.writeUnits units), admits_whenOpenWith h.drain⟩

end Closing

end Wrappers

/-! ## Stacks -/

namespace Layer

/-- The flag of the layer is down if it has one, given which endpoints and which streams are
accepting. -/
def Accepting (foot : L → Prop) (below : σ → Prop) : Layer P L σ → Prop
  | .endpoint s => foot s
  | .quota q => below q.inner
  | .closing c => c.Accepting below
  | .chain _ => False
  | .traced t => below t.inner
  | .relay t => below t.inner

variable {foot : L → Prop} {I : σ → Prop}

variable [ClosePolicy P σ]

theorem admits_source [Source L] [Source σ] (he : Source.Admits foot) (h : Source.Admits I) :
    Source.Admits (Accepting foot I : Layer P L σ → Prop) where
  readU8 := ends_act he.readU8 (Quota.admits_source h).readU8 (Closing.admits_source h).readU8
    (fun _ hs => hs.elim) (Traced.admits_source h).readU8 (Relay.admits_source h).readU8
  readBytes := ends_actWith he.readBytes (Quota.admits_source h).readBytes
    (Closing.admits_source h).readBytes (fun _ hs => hs.elim) (Traced.admits_source h).readBytes
    (Relay.admits_source h).readBytes
  readUnits n := ends_actWith (he.readUnits n) ((Quota.admits_source h).readUnits n)
    ((Closing.admits_source h).readUnits n) (fun _ hs => hs.elim)
    ((Traced.admits_source h).readUnits n) ((Relay.admits_source h).readUnits n)
  fill := ends_actWith he.fill (Quota.admits_source h).fill (Closing.admits_source h).fill
    (fun _ hs => hs.elim) (Traced.admits_source h).fill (Relay.admits_source h).fill

theorem admits_sink [Sink L] [Sink σ] (he : Sink.Admits foot) (h : Sink.Admits I) :
    Sink.Admits (Accepting foot I : Layer P L σ → Prop) where
  writeU8 v := ends_act (he.writeU8 v) ((Quota.admits_sink h).writeU8 v)
    ((Closing.admits_sink h).writeU8 v) (fun _ hs => hs.elim) ((Traced.admits_sink h).writeU8 v)
    ((Relay.admits_sink h).writeU8 v)
  flush := ends_act he.flush (Quota.admits_sink h).flush (Closing.admits_sink h).flush
    (fun _ hs => hs.elim) (Traced.admits_sink h).flush (Relay.admits_sink h).flush
  writeBytes bs := ends_act (he.writeBytes bs) ((Quota.admits_sink h).writeBytes bs)
    ((Closing.admits_sink h).writeBytes bs) (fun _ hs => hs.elim)
    ((Traced.admits_sink h).writeBytes bs) ((Relay.admits_sink h).writeBytes bs)
  writeUnits us := ends_act (he.writeUnits us) ((Quota.admits_sink h).writeUnits us)
    ((Closing.admits_sink h).writeUnits us) (fun _ hs => hs.elim)
    ((Traced.admits_sink h).writeUnits us) ((Relay.admits_sink h).writeUnits us)
  drain := ends_actWith he.drain (Quota.admits_sink h).drain (Closing.admits_sink h).drain
    (fun _ hs => hs.elim) (Traced.admits_sink h).drain (Relay.admits_sink h).drain

end Layer

namespace Tree

/-- The tree is a stack on an endpoint that is accepting, and all flags in it are down. -/
def Accepting (foot : L → Prop) : {n : Nat} → Tree P L n → Prop
  | 0, t => Empty.elim t
  | _ + 1, t => Layer.Accepting foot (Accepting foot) t

variable {foot : L → Prop}

/-- A stack whose flags are all down lets every data operation in. -/
theorem admits_source [Source L] [SourcePolicy P] (h : Source.Admits foot) (n : Nat) :
    Source.Admits (Accepting foot : Tree P L n → Prop) := by
  induction n with
  | zero => exact Source.admits_empty _
  | succ n ih => exact Layer.admits_source h ih

theorem admits_sink [Sink L] [SinkPolicy P] (h : Sink.Admits foot) (n : Nat) :
    Sink.Admits (Accepting foot : Tree P L n → Prop) := by
  induction n with
  | zero => exact Sink.admits_empty _
  | succ n ih => exact Layer.admits_sink h ih

end Tree

end ByteFlow
