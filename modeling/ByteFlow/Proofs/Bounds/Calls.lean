import ByteFlow.Proofs.Bounds.Endpoint

/-!
# Calls within a tree

An operation on a tree is handed down to its endpoints, and on the way a quota narrows the window,
and a chain goes from one member to the next.  Whatever stream is asked on the way is asked for a
window that lies inside the bytes, and what a quota or a traced stream reckons when it has been
answered stays within bounds, be the answer a fault or not.

## Main definitions

* `Layer.Asks`, `Tree.Asked` — the bulk operations that one on a tree comes to.
* `Layer.Meets`, `Tree.Meets` — the hazards of a bulk operation on a tree, at any depth.
* `Tree.Touches` — the hazards of a single byte.
* `Tree.fill_averted`, `Tree.drain_averted`, `Tree.read_averted`, `Tree.write_averted` — all of
  them are averted.
-/

namespace ByteFlow

open ByteFlow.Action

variable {D E P L σ : Type} {hazard : Hazard} {n : Nat}

/-! ## Bulk operations -/

namespace Layer

variable [ClosePolicy P σ]

/-- The bulk operations that one on a layer asks of the streams below it. -/
inductive Asks (settle : Action σ Unit) (bulk : Action (σ × Region) Unit) :
    Layer P L σ × Region → σ × Region → Prop
  | quota {q r} : q.remaining ≠ 0 → Asks settle bulk (.quota q, r) (q.inner, r.narrowed q.remaining)
  | closing {c r} : c.closed = false → Asks settle bulk (.closing c, r) (c.inner, r)
  | chain {c r d q m rest} : Visits (Chain.spreadTurn settle bulk) (c, r) (d, q) →
    d.ahead = m :: rest → q.hasRemaining = true → Asks settle bulk (.chain c, r) (m, q)
  | traced {t r} : Asks settle bulk (.traced t, r) (t.inner, r)
  | relay {t r} : Asks settle bulk (.relay t, r) (t.inner, r)

omit [ClosePolicy P σ] in
/-- The hazards of a bulk operation on a layer, apart from those of the streams below it, given
what the operation is on the layer and below it. -/
inductive Meets (endpoint : L × Region → Hazard → Prop) (bulk : Action (σ × Region) Unit)
    (own : Action (Layer P L σ × Region) Unit) : Layer P L σ × Region → Hazard → Prop
  | before {s r hazard} : r.Meets hazard → Meets endpoint bulk own (s, r) hazard
  | after {p hazard} : (own.run p).state.2.Meets hazard → Meets endpoint bulk own p hazard
  | endpoint {e r hazard} : endpoint (e, r) hazard →
    Meets endpoint bulk own (.endpoint e, r) hazard
  /-- A quota finds out how many bytes have passed. -/
  | passed {q r} : q.remaining ≠ 0 → Meets endpoint bulk own (.quota q, r)
    (.subtract (bulk.run (q.inner, r.narrowed q.remaining)).state.2.position r.position)
  /-- And it shrinks by as many. -/
  | shrunk {q r} : q.remaining ≠ 0 → Meets endpoint bulk own (.quota q, r)
    (.subtract q.remaining
      ((bulk.run (q.inner, r.narrowed q.remaining)).state.2.position - r.position))
  /-- A traced stream tells how many bytes were moved. -/
  | moved {t r} : Meets endpoint bulk own (.traced t, r)
    (.subtract (bulk.run (t.inner, r)).state.2.position r.position)
  /-- And it tells how many could have been. -/
  | room {t r} : Meets endpoint bulk own (.traced t, r)
    (.subtract (bulk.run (t.inner, r)).state.2.limit r.position)

variable {settle : Action σ Unit} {bulk : Action (σ × Region) Unit} {I : σ → Prop} {J : L → Prop}
  {s : Layer P L σ} {r : Region}

/-- Whatever stream is asked is in bounds, and so is the window that it is asked for. -/
theorem Asks.inBounds {m : σ} {q : Region} (h : Asks settle bulk (s, r) (m, q))
    (hpolicy : Keeps (fun p => I p.2) (ClosePolicy.onClose : Action (P × σ) Bool))
    (hsettle : Keeps I settle) (hbulk : Action.Steady I bulk) (hs : s.All I J)
    (hr : r.WellFormed) : I m ∧ q.WellFormed := by
  cases h with
  | quota _ => exact ⟨hs, hr.narrowed _⟩
  | closing _ => exact ⟨hs, hr⟩
  | chain hvisits hahead _ =>
    have hturn : Keeps _ (Chain.spreadTurn settle bulk) :=
      Chain.steady_spreadTurn hpolicy hsettle hbulk r hr
    obtain ⟨hd, honward⟩ := hturn.visits hvisits ⟨hs, .refl hr⟩
    refine ⟨hd m ?_, honward.wellFormed hr⟩
    rw [Chain.members, hahead]
    exact List.mem_append_right _ List.mem_cons_self
  | traced => exact ⟨hs, hr⟩
  | relay => exact ⟨hs, hr⟩

omit [ClosePolicy P σ] in
theorem Meets.averted {endpoint : L × Region → Hazard → Prop}
    {own : Action (Layer P L σ × Region) Unit} (h : Meets endpoint bulk own (s, r) hazard)
    (hendpoint : ∀ {e q}, J e → q.WellFormed → endpoint (e, q) hazard → hazard.Averted)
    (hbulk : Action.Steady I bulk) (hown : Action.Steady (All I J) own) (hs : s.All I J)
    (hr : r.WellFormed) : hazard.Averted := by
  cases h with
  | before hmeets => exact hr.averted hmeets
  | after hmeets => exact ((hown.ends hs hr).2.wellFormed hr).averted hmeets
  | endpoint hmeets => exact hendpoint hs hr hmeets
  | passed _ => exact ((hbulk.ends hs (hr.narrowed _)).2.moved_le hr).1
  | shrunk _ => exact ((hbulk.ends hs (hr.narrowed _)).2.moved_le hr).2
  | moved => exact (hbulk.ends hs hr).2.position_le
  | room =>
    have honward := (hbulk.ends hs hr).2
    exact Nat.le_trans honward.position_le honward.position_le_limit

end Layer

namespace Tree

variable [∀ n, ClosePolicy P (Tree P L n)]

/-- The bulk operations that one on a tree comes to, itself included. -/
inductive Asked (settle : ∀ n, Action (Tree P L n) Unit)
    (bulk : ∀ n, Action (Tree P L n × Region) Unit) :
    {k m : Nat} → Tree P L k × Region → Tree P L m × Region → Prop
  | self {k : Nat} (p : Tree P L k × Region) : Asked settle bulk p p
  | under {k m : Nat} {p : Tree P L (k + 1) × Region} {q : Tree P L k × Region}
    {o : Tree P L m × Region} : Layer.Asks (settle k) (bulk k) p q → Asked settle bulk q o →
    Asked settle bulk p o

/-- The hazards of a bulk operation on a tree: those of every layer that it comes to. -/
def Meets (endpoint : L × Region → Hazard → Prop) (settle : ∀ n, Action (Tree P L n) Unit)
    (bulk : ∀ n, Action (Tree P L n × Region) Unit) (p : Tree P L n × Region)
    (hazard : Hazard) : Prop :=
  ∃ (m : Nat) (q : Tree P L (m + 1) × Region),
    Asked settle bulk p q ∧ Layer.Meets endpoint (bulk m) (bulk (m + 1)) q hazard

variable {settle : ∀ n, Action (Tree P L n) Unit} {bulk : ∀ n, Action (Tree P L n × Region) Unit}
  {J : L → Prop}
  (hpolicy : ∀ n, Keeps (fun p => p.2.All J) (ClosePolicy.onClose : Action (P × Tree P L n) Bool))
  (hsettle : ∀ n, Keeps (All J) (settle n)) (hbulk : ∀ n, Action.Steady (All J) (bulk n))
include hpolicy hsettle hbulk

/-- The induction is on the way down. -/
theorem Asked.inBounds {m : Nat} {p : Tree P L n × Region} {q : Tree P L m × Region}
    (h : Asked settle bulk p q) (hp : p.1.All J) (hr : p.2.WellFormed) :
    q.1.All J ∧ q.2.WellFormed := by
  induction h with
  | self => exact ⟨hp, hr⟩
  | under hasks _ ih =>
    rw [all_eq] at hp
    obtain ⟨hq, hwindow⟩ := hasks.inBounds (hpolicy _) (hsettle _) (hbulk _) hp hr
    exact ih hq hwindow

theorem Meets.averted {endpoint : L × Region → Hazard → Prop} {t : Tree P L n} {r : Region}
    (h : Meets endpoint settle bulk (t, r) hazard)
    (hendpoint : ∀ {e q}, J e → q.WellFormed → endpoint (e, q) hazard → hazard.Averted)
    (ht : t.All J) (hr : r.WellFormed) : hazard.Averted := by
  obtain ⟨m, ⟨s, q⟩, hasked, hmeets⟩ := h
  obtain ⟨hs, hq⟩ := hasked.inBounds hpolicy hsettle hbulk ht hr
  have hown := hbulk (m + 1)
  rw [all_eq] at hs hown
  exact hmeets.averted hendpoint (hbulk m) hown hs hq

end Tree

/-! ## Single bytes

A single byte is asked of every stream at most once on its way, so that the stream is found as it
is before. -/

/-- The hazards of a single byte at a layer, given those at an endpoint and below. -/
def Layer.Touches (endpoint : L → Hazard → Prop) (below : σ → Hazard → Prop) :
    Layer P L σ → Hazard → Prop
  | .endpoint e, hazard => endpoint e hazard
  | .quota q, hazard =>
    (q.remaining ≠ 0 ∧ hazard = .subtract q.remaining 1) ∨ below q.inner hazard
  | .closing c, hazard => below c.inner hazard
  | .chain c, hazard => ∃ m ∈ c.members, below m hazard
  | .traced t, hazard => below t.inner hazard
  | .relay t, hazard => below t.inner hazard

namespace Tree

/-- The hazards of a single byte at a tree, given those at an endpoint. -/
def Touches (endpoint : L → Hazard → Prop) : {n : Nat} → Tree P L n → Hazard → Prop
  | 0, t, _ => Empty.elim t
  | _ + 1, t, hazard => Layer.Touches endpoint (Touches endpoint) t hazard

/-- A quota lets a byte pass only as long as it is not used up. -/
theorem Touches.averted {endpoint : L → Hazard → Prop} {J : L → Prop}
    (hendpoint : ∀ {e}, J e → endpoint e hazard → hazard.Averted) {t : Tree P L n}
    (h : t.Touches endpoint hazard) (ht : t.All J) : hazard.Averted := by
  induction n with
  | zero => exact Empty.elim t
  | succ n ih =>
    rw [all_eq] at ht
    cases t with
    | endpoint e => exact hendpoint ht h
    | quota q =>
      rcases h with ⟨hleft, rfl⟩ | hbelow
      · exact Nat.pos_of_ne_zero hleft
      · exact ih hbelow ht
    | closing c => exact ih h ht
    | chain c =>
      obtain ⟨m, hm, hbelow⟩ := h
      exact ih hbelow (ht m hm)
    | traced t => exact ih h ht
    | relay t => exact ih h ht

end Tree

/-! ## Sources and sinks -/

/-- The hazards of a single byte read from an endpoint. -/
def SourceEnd.Touches : SourceEnd D Empty → Hazard → Prop
  | .memory s, hazard => s.Meets hazard
  | .device _, _ => False
  | .outside s, _ => s.elim

/-- The hazards of a single byte written to an endpoint. -/
def SinkEnd.Touches : SinkEnd E Empty → Hazard → Prop
  | .memory s, hazard => s.Meets hazard
  | .growing _, _ => False
  | .hashing _, _ => False
  | .device _, _ => False
  | .outside s, _ => s.elim

namespace Tree

section Source

variable [InputDevice D] [SourcePolicy P]

/-- The hazards of filling a region. -/
def FillMeets (t : Tree P (SourceEnd D Empty) n) (r : Region) : Hazard → Prop :=
  Meets SourceEnd.Meets (fun _ => pure ()) (fun _ => Source.fill) (t, r)

/-- The hazards of reading a byte. -/
def ReadMeets (t : Tree P (SourceEnd D Empty) n) : Hazard → Prop := t.Touches SourceEnd.Touches

variable {t : Tree P (SourceEnd D Empty) n} (ht : t.All SourceEnd.InBounds)
include ht

omit [InputDevice D] [SourcePolicy P] in
theorem read_averted (h : t.ReadMeets hazard) : hazard.Averted := by
  refine Touches.averted (fun {e} he hmeets => ?_) h ht
  cases e with
  | memory s => exact hmeets.averted he
  | device s => exact hmeets.elim
  | outside s => exact s.elim

variable [LawfulSourcePolicy P]

theorem fill_averted {r : Region} (hr : r.WellFormed) (h : t.FillMeets r hazard) :
    hazard.Averted :=
  Meets.averted (fun n => LawfulSourcePolicy.keeps_onClose (steady_source SourceEnd.steady n))
    (fun _ => .pure ()) (fun n => (steady_source SourceEnd.steady n).fill) h
    (fun he hq hmeets => hmeets.averted he hq) ht hr

end Source

section Sink

variable [OutputDevice E] [SinkPolicy P]

/-- The hazards of draining a region. -/
def DrainMeets (t : Tree P (SinkEnd E Empty) n) (r : Region) : Hazard → Prop :=
  Meets SinkEnd.Meets (fun _ => Sink.flush) (fun _ => Sink.drain) (t, r)

/-- The hazards of writing a byte. -/
def WriteMeets (t : Tree P (SinkEnd E Empty) n) : Hazard → Prop := t.Touches SinkEnd.Touches

variable {t : Tree P (SinkEnd E Empty) n} (ht : t.All SinkEnd.InBounds)
include ht

omit [OutputDevice E] [SinkPolicy P] in
theorem write_averted (h : t.WriteMeets hazard) : hazard.Averted := by
  refine Touches.averted (fun {e} he hmeets => ?_) h ht
  cases e with
  | memory s => exact hmeets.averted he
  | growing s => exact hmeets.elim
  | hashing s => exact hmeets.elim
  | device s => exact hmeets.elim
  | outside s => exact s.elim

variable [LawfulSinkPolicy P]

theorem drain_averted {r : Region} (hr : r.WellFormed) (h : t.DrainMeets r hazard) :
    hazard.Averted :=
  Meets.averted (fun n => LawfulSinkPolicy.keeps_onClose (steady_sink SinkEnd.steady n))
    (fun n => (steady_sink SinkEnd.steady n).flush) (fun n => (steady_sink SinkEnd.steady n).drain)
    h (fun he hq hmeets => hmeets.averted he hq) ht hr

end Sink

end Tree

end ByteFlow
