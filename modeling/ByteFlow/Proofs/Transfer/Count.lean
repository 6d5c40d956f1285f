import ByteFlow.Proofs.Transfer.Bound
import ByteFlow.Proofs.Transfer.Exact
import Mathlib.Algebra.Order.Floor.Div

/-!
# How many rounds a transfer takes

A round that is not the last one moves as many bytes as the region has room for.  The only other
complete round is the one that comes up to the limit, and no round is counted after it; without
it, the last round is one that came up short, be it with no byte at all.  So the number of rounds
is known from the number of bytes.

## Main definitions

* `Source.Unfailing s`, `Sink.Unfailing t` — no fill or drain fails, now or later.
* `Plan.Paced` — between two rounds, the invariant.
* `Plan.Counted` — what the number of rounds says.
* `Plan.rounds_exact` — transfers that go in rounds.
-/

namespace ByteFlow

open ByteFlow.Action

variable {σ τ : Type}

/-! ## Streams that do not fail -/

/-- No fill fails, neither the next one nor any after it. -/
def Source.Unfailing [Source σ] (s : σ) : Prop :=
  ∃ I : σ → Prop, I s ∧ ∀ s r, I s → r.Writable →
    (Source.fill : Action (σ × Region) Unit).Ends (s, r) fun answer q => answer = .ok () ∧ I q.1

/-- No drain fails, neither the next one nor any after it. -/
def Sink.Unfailing [Sink τ] (t : τ) : Prop :=
  ∃ I : τ → Prop, I t ∧ ∀ t r, I t → r.WellFormed →
    (Sink.drain : Action (τ × Region) Unit).Ends (t, r) fun answer q => answer = .ok () ∧ I q.1

theorem Source.Unfailing.fill [Source σ] {s : σ} (h : Unfailing s) {r : Region} (hr : r.Writable) :
    (Source.fill : Action (σ × Region) Unit).Ends (s, r) fun answer q =>
      answer = .ok () ∧ Unfailing q.1 := by
  obtain ⟨I, hs, hfill⟩ := h
  refine (hfill s r hs hr).of_answer ?_
  intro q hq
  exact ⟨rfl, I, hq, hfill⟩

theorem Sink.Unfailing.drain [Sink τ] {t : τ} (h : Unfailing t) {r : Region} (hr : r.WellFormed) :
    (Sink.drain : Action (τ × Region) Unit).Ends (t, r) fun answer q =>
      answer = .ok () ∧ Unfailing q.1 := by
  obtain ⟨I, ht, hdrain⟩ := h
  refine (hdrain t r ht hr).of_answer ?_
  intro q hq
  exact ⟨rfl, I, hq, hdrain⟩

/-- An open source with a content does not fail. -/
theorem Source.unfailing_of_isOpen [Source σ] [Openness σ] [Content σ] [LawfulSource σ] {s : σ}
    (hs : IsOpen s) : Unfailing s := by
  refine ⟨IsOpen, hs, fun s r hs hr => ?_⟩
  refine (LawfulSource.fill s r hs hr).of_answer ?_
  rintro q ⟨hq, -⟩
  exact ⟨rfl, hq.1⟩

/-- An open sink does not fail, whether it has room or not. -/
theorem Sink.unfailing_of_isOpen [Sink τ] [Openness τ] [Meter τ] [Capacity τ] [LawfulSink τ] {t : τ}
    (ht : IsOpen t) : Unfailing t := by
  refine ⟨IsOpen, ht, fun t r ht hr => ?_⟩
  refine (LawfulSink.drain t r ht hr).of_answer ?_
  rintro q ⟨n, -, hq, -⟩
  exact ⟨rfl, hq.1⟩

namespace Plan

variable [Source σ] [Sink τ] {p : Plan} {cap : Nat} {start : Channel σ τ}
  {a b : Channel σ τ × Progress}

/-! ## What the number of rounds says -/

/-- A transfer in rounds through a region with room for `cap` bytes came to its end by itself, and
all of its rounds but the last one moved `cap` bytes. -/
structure Counted (p : Plan) (cap : Nat) (start : Channel σ τ) (summary : Summary)
    (final : Channel σ τ) : Prop where
  finishes : p.Finishes (start, ⟨0, 0⟩) (.ok ()) (final, ⟨summary.bytes, summary.rounds⟩)
  full : ∀ k < summary.rounds, ∃ a, p.Rounds k (start, ⟨0, 0⟩) a ∧ a.2 = ⟨k * cap, k⟩
  /-- The limit was reached. -/
  limited : p.limit = some summary.bytes → summary.rounds = summary.bytes ⌈/⌉ cap
  /-- One of the sides came up short. -/
  short : p.limit ≠ some summary.bytes → summary.rounds = summary.bytes / cap + 1
  nothing : p.limit = some 0 → summary.bytes = 0 ∧ summary.rounds = 0 ∧
    final.source = start.source ∧ final.target = start.target

/-! ## Between two rounds -/

/-- So many rounds were complete, and all of them began where the ones before them had moved as
many bytes as the region has room for. -/
structure Paced (p : Plan) (cap : Nat) (start : Channel σ τ) (a : Channel σ τ × Progress) :
    Prop where
  rounds : p.Rounds a.2.rounds (start, ⟨0, 0⟩) a
  moved_eq : a.2.moved = p.within 0 (a.2.rounds * cap)
  full : ∀ k < a.2.rounds, p.wantsMore (k * cap) = true ∧
    ∃ b, p.Rounds k (start, ⟨0, 0⟩) b ∧ b.2 = ⟨k * cap, k⟩
  source : Source.Unfailing a.1.source
  target : Sink.Unfailing a.1.target
  readOnly_eq : a.1.region.readOnly = false
  capacity_eq : a.1.region.capacity = cap

/-- Where more is asked for, no round before came up to the limit. -/
theorem within_zero_of_wants {n : Nat} (h : p.wantsMore (p.within 0 n) = true) :
    p.within 0 n = n := by
  rcases p with ⟨_ | limit, size⟩
  · rfl
  · have hlt : min n (limit - 0) < limit := of_decide_eq_true h
    change min n (limit - 0) = n
    omega

/-- Behind `n` bytes, the next window ends where one for both would end. -/
theorem add_within {n m : Nat} (h : p.wantsMore n = true) :
    n + p.within n m = p.within 0 (n + m) := by
  rcases p with ⟨_ | limit, size⟩
  · rfl
  · simp only [wantsMore, within, decide_eq_true_eq] at *
    omega

namespace Paced

theorem initial (hs : Source.Unfailing start.source) (ht : Sink.Unfailing start.target)
    (hwritable : start.region.readOnly = false) :
    p.Paced start.region.capacity start (start, ⟨0, 0⟩) where
  rounds := .zero _
  moved_eq := by
    rw [Nat.zero_mul]
    exact (Nat.le_zero.1 p.within_le).symm
  full k hk := absurd hk (Nat.not_lt_zero k)
  source := hs
  target := ht
  readOnly_eq := hwritable
  capacity_eq := rfl

/-- As long as more is asked for, no window was cut short. -/
theorem moved_of_wants (h : p.Paced cap start a) (hwants : p.wantsMore a.2.moved = true) :
    a.2.moved = a.2.rounds * cap := by
  have hmoved := h.moved_eq
  rw [hmoved] at hwants
  rwa [within_zero_of_wants hwants] at hmoved

/-- The limit was reached: the window of the last round was the first one that may have been cut
short. -/
theorem rounds_eq_ceilDiv (h : p.Paced cap start a) (hcap : cap ≠ 0)
    (hlimit : p.limit = some a.2.moved) : a.2.rounds = a.2.moved ⌈/⌉ cap := by
  have hmoved : a.2.moved ≤ a.2.rounds * cap := by
    rw [h.moved_eq]
    exact p.within_le
  rw [Nat.ceilDiv_eq_add_pred_div]
  cases hrounds : a.2.rounds with
  | zero =>
    rw [hrounds] at hmoved
    exact (Nat.div_eq_of_lt (by omega)).symm
  | succ k =>
    have hlast := (h.full k (by omega)).1
    rw [wantsMore, hlimit, decide_eq_true_eq] at hlast
    rw [hrounds, Nat.succ_mul] at hmoved
    refine (Nat.div_eq_of_lt_le ?_ ?_).symm
    · rw [Nat.succ_mul]
      omega
    · rw [Nat.succ_mul, Nat.succ_mul]
      omega

/-- Where no more is asked for, the limit was reached. -/
theorem limit_eq (h : p.Paced cap start a) (henough : ¬p.wantsMore a.2.moved = true) :
    p.limit = some a.2.moved := by
  have hmoved := h.moved_eq
  cases hlimit : p.limit with
  | none =>
    rw [wantsMore, hlimit] at henough
    exact absurd rfl henough
  | some limit =>
    rw [wantsMore, hlimit, decide_eq_true_eq] at henough
    have hle : p.within 0 (a.2.rounds * cap) ≤ limit - 0 := p.within_le_limit hlimit
    rw [show limit = a.2.moved by omega]

/-- Under a limit of nothing there is no round. -/
theorem eq_start (h : p.Paced cap start a) (hlimit : p.limit = some 0) :
    a = (start, ⟨0, 0⟩) := by
  have hrounds := h.rounds
  cases hnumber : a.2.rounds with
  | zero =>
    rw [hnumber] at hrounds
    cases hrounds
    rfl
  | succ k =>
    have hfirst := (h.full 0 (by omega)).1
    rw [Nat.zero_mul, wantsMore, hlimit] at hfirst
    simp at hfirst

/-- The limit was reached, and there is no other round. -/
theorem counted_of_enough (h : p.Paced cap start a) (hcap : cap ≠ 0)
    (henough : ¬p.wantsMore a.2.moved = true) (strategy : Strategy) :
    p.round.Ends a fun answer b => answer = .ok (some ()) ∧
      p.Counted cap start ⟨b.2.moved, b.2.rounds, strategy⟩ b.1 := by
  have hround := round_of_enough (p := p) (a := a) (by simpa using henough)
  refine hround.mono ?_
  rintro answer b ⟨rfl, rfl⟩
  have hstuck : p.Stuck a := by
    rw [Stuck, hround.1]
    simp
  have hlimit := h.limit_eq henough
  refine ⟨rfl, ⟨a.2.rounds, a, h.rounds, hstuck, ?_⟩, fun k hk => (h.full k hk).2,
    fun hreached => h.rounds_eq_ceilDiv hcap hreached, fun hshort => absurd hlimit hshort, ?_⟩
  · refine hround.mono ?_
    rintro answer b ⟨rfl, rfl⟩
    exact ⟨rfl, rfl⟩
  · intro hnothing
    obtain rfl := h.eq_start hnothing
    exact ⟨rfl, rfl, rfl, rfl⟩

variable [Meter σ] [MeteredSource σ]

/-- A round does not fail, and leaves streams that do not fail. -/
theorem completes (h : p.Paced cap start a) (hwants : p.wantsMore a.2.moved = true) :
    p.Completes a ∧ Source.Unfailing (p.filling a).state.1 ∧
      Sink.Unfailing (p.draining a).state.1 := by
  have hwindow : (p.openWindow a.2.moved a.1.region).Writable := p.writable_openWindow h.readOnly_eq
  obtain ⟨hfilled, hsource⟩ := h.source.fill hwindow
  obtain ⟨bs, hbs, -, hreceived⟩ := MeteredSource.fill a.1.source _ hwindow
  change (p.filling a).state.2 = p.loaded a.2.moved a.1.region bs at hreceived
  rw [remaining_openWindow] at hbs
  have hflipped : (p.filling a).state.2.flip.WellFormed := by
    rw [hreceived]
    exact p.wellFormed_flip_loaded h.readOnly_eq hbs
  obtain ⟨hdrained, htarget⟩ := h.target.drain hflipped
  exact ⟨⟨hwants, hfilled, hdrained⟩, hsource, htarget⟩

variable [Meter τ] [MeteredSink τ]

/-- What a round moves is what its counters say. -/
theorem exists_moved (h : p.Paced cap start a) (hwants : p.wantsMore a.2.moved = true) :
    ∃ n, n ≤ p.within a.2.moved cap ∧ p.round.Ends a fun answer b =>
      answer = .ok (if n = p.within a.2.moved cap then none else some ()) ∧
        b = (p.drained a, ⟨a.2.moved + n, a.2.rounds + 1⟩) := by
  obtain ⟨hcompletes, -, -⟩ := h.completes hwants
  obtain ⟨bs, k, hnew⟩ := exists_handed (p := p) h.readOnly_eq
  have hlength := hnew.length_le
  have hk := hnew.le_length
  rw [h.capacity_eq] at hlength
  refine ⟨k, Nat.le_trans hk hlength, (round_of_completes hcompletes).mono ?_⟩
  rintro answer b ⟨rfl, rfl⟩
  have hgiven : (p.filling a).state.2.position - (p.draining a).state.2.remaining = k := by
    rw [hnew.position_eq, hnew.remaining_eq]
    omega
  rw [hgiven]
  refine ⟨congrArg Except.ok ?_, rfl⟩
  have hmore : ((p.filling a).state.2.hasRemaining || (p.draining a).state.2.hasRemaining) =
      !decide (k = p.within a.2.moved cap) := by
    rw [Bool.eq_iff_iff, Bool.or_eq_true_iff, Region.hasRemaining_iff, Region.hasRemaining_iff,
      hnew.unfilled_eq, hnew.remaining_eq, h.capacity_eq, Bool.not_eq_true',
      decide_eq_false_iff_not]
    omega
  rw [hmore]
  by_cases hall : k = p.within a.2.moved cap
  · simp [hall]
  · simp [hall]

/-- A round that is not the last one keeps the pace. -/
theorem next (h : p.Paced cap start a) (hround : (p.round.run a).answer = .ok none) :
    p.Paced cap start (p.round.run a).state := by
  have hwants : p.wantsMore a.2.moved = true := by
    by_contra hwants
    rw [(round_of_enough (by simpa using hwants)).1] at hround
    simp at hround
  have hmoved := h.moved_of_wants hwants
  obtain ⟨-, hsource, htarget⟩ := h.completes hwants
  obtain ⟨bs, k, hnew⟩ := exists_handed (p := p) h.readOnly_eq
  obtain ⟨n, hn, hanswer, hstate⟩ := h.exists_moved hwants
  have hall : n = p.within a.2.moved cap := by
    by_contra hshort
    rw [if_neg hshort, hround] at hanswer
    simp at hanswer
  have hrounds := h.rounds.snoc hround
  rw [hstate] at hrounds ⊢
  refine ⟨hrounds, ?moved, ?full, hsource, htarget, hnew.readOnly_eq, ?_⟩
  case moved =>
    dsimp only
    rw [hall, add_within hwants, hmoved, Nat.succ_mul]
  case full =>
    intro k hk
    rcases Nat.lt_succ_iff_lt_or_eq.1 hk with hk | rfl
    · exact h.full k hk
    · rw [← hmoved]
      exact ⟨hwants, a, h.rounds, rfl⟩
  · exact hnew.capacity_eq.trans h.capacity_eq

/-- Rounds that are not the last one keep the pace. -/
theorem of_rounds {n : Nat} (h : p.Paced cap start a) (hrounds : p.Rounds n a b) :
    p.Paced cap start b := by
  induction hrounds with
  | zero a => exact h
  | succ hround _ ih => exact ih (h.next hround)

/-- The last round came up short. -/
theorem counted_of_short (h : p.Paced cap start a) (hwants : p.wantsMore a.2.moved = true)
    (hstuck : p.Stuck a) (strategy : Strategy) :
    p.round.Ends a fun answer b => answer = .ok (some ()) ∧
      p.Counted cap start ⟨b.2.moved, b.2.rounds, strategy⟩ b.1 := by
  obtain ⟨n, hn, hround⟩ := h.exists_moved hwants
  have hshort : n ≠ p.within a.2.moved cap := by
    intro hall
    rw [if_pos hall] at hround
    exact hstuck hround.1
  rw [if_neg hshort] at hround
  have hmoved := h.moved_of_wants hwants
  have hcap : n < cap := by
    have hle : p.within a.2.moved cap ≤ cap := p.within_le
    omega
  refine hround.mono ?_
  rintro answer b ⟨rfl, rfl⟩
  refine ⟨rfl, ⟨a.2.rounds, a, h.rounds, hstuck, ?finishes⟩, ?full, ?limited, ?short, ?nothing⟩
  case finishes =>
    refine hround.mono ?_
    rintro answer b ⟨rfl, rfl⟩
    exact ⟨rfl, rfl⟩
  case full =>
    intro k hk
    rcases Nat.lt_succ_iff_lt_or_eq.1 hk with hk | rfl
    · exact (h.full k hk).2
    · rw [← hmoved]
      exact ⟨a, h.rounds, rfl⟩
  case limited =>
    intro hreached
    have hle : p.within a.2.moved cap ≤ a.2.moved + n - a.2.moved := p.within_le_limit hreached
    omega
  case short =>
    intro _
    dsimp only
    rw [hmoved, Nat.mul_comm, Nat.mul_add_div (by omega), Nat.div_eq_of_lt hcap, Nat.add_zero]
  case nothing =>
    intro hnothing
    rw [wantsMore, hnothing] at hwants
    simp at hwants

end Paced

/-! ## Whole transfers -/

variable [Meter σ] [MeteredSource σ] [Supply σ] [Depletes σ] [Meter τ] [MeteredSink τ] {s : σ}
  {t : τ}

/-- The number of rounds through a region is known from the number of bytes. -/
theorem ends_runBetween_counted (p : Plan) (hs : Source.Unfailing s) (ht : Sink.Unfailing t)
    {r : Region} (hwritable : r.readOnly = false) (hcapacity : r.capacity ≠ 0) :
    p.runBetween.Ends ((s, t), r) fun answer q => ∃ summary, answer = .ok summary ∧
      p.Counted r.capacity ⟨s, t, r⟩ summary ⟨q.1.1, q.1.2, q.2⟩ := by
  refine (p.ends_runBetween_finishes s t hwritable hcapacity).mono ?_
  rintro answer q ⟨last, b, ⟨n, a, hrounds, hstuck, hlast⟩, hchannel, rfl⟩
  have hpaced : p.Paced r.capacity ⟨s, t, r⟩ a := (Paced.initial hs ht hwritable).of_rounds hrounds
  have hcounted : p.round.Ends a fun last b => last = .ok (some ()) ∧ p.Counted r.capacity ⟨s, t, r⟩
      ⟨b.2.moved, b.2.rounds, .buffered r.placement r.capacity⟩ b.1 := by
    by_cases hwants : p.wantsMore a.2.moved = true
    · exact hpaced.counted_of_short hwants hstuck _
    · exact hpaced.counted_of_enough hcapacity hwants _
  obtain ⟨rfl, rfl⟩ := hlast
  obtain ⟨hanswer, hcounted⟩ := hcounted
  rw [hanswer, ← hchannel]
  exact ⟨_, rfl, hcounted⟩

/-- A transfer in rounds between streams that do not fail comes to its end by itself, and the
number of its rounds is known from the number of bytes, whether the region is one of the caller's
or one that was made for it. -/
theorem rounds_exact (p : Plan) (hs : Source.Unfailing s) (ht : Sink.Unfailing t) :
    (∀ r : Region, r.readOnly = false → r.capacity ≠ 0 →
      p.runThrough.Ends ((s, t), r) fun answer q => ∃ summary, answer = .ok summary ∧
        p.Counted r.capacity ⟨s, t, r⟩ summary ⟨q.1.1, q.1.2, q.2⟩) ∧
    (p.bufferSize ≤ maxBufferSize → ∀ placement, p.placement s t = some placement →
      p.run.Ends (s, t) fun answer q => ∃ summary region, answer = .ok summary ∧
        p.Counted p.capacity ⟨s, t, Region.allocate p.capacity placement⟩ summary
          ⟨q.1, q.2, region⟩) := by
  constructor
  · intro r hwritable hcapacity
    rw [ends_runThrough p hwritable, if_neg hcapacity]
    exact p.ends_runBetween_counted hs ht hwritable hcapacity
  · intro hsize placement hplacement
    have hbuffer : p.bufferSize ≠ 0 := by
      intro hzero
      rw [Plan.placement, if_pos hzero] at hplacement
      simp at hplacement
    have hcapacity : (Region.allocate p.capacity placement).capacity = p.capacity := by
      rw [Region.capacity, Region.allocate, Bytes.size_replicate]
    have hcounted := p.ends_runBetween_counted hs ht (r := Region.allocate p.capacity placement)
      rfl (by rw [hcapacity]; exact capacity_ne_zero hbuffer)
    rw [hcapacity] at hcounted
    rw [ends_run p hsize, hplacement]
    refine hcounted.mono ?_
    rintro answer q ⟨summary, hanswer, hends⟩
    exact ⟨summary, q.2, hanswer, hends⟩

/-- Four bytes through a region for two: without a limit it takes a third round to find that there
are no more, and with a limit of four it does not. -/
theorem rounds_exact_of_multiple :
    let s : Tree StandardPolicy MemorySource 2 := Layer.chain (Chain.new .close
      [Layer.endpoint ⟨Bytes.ofList [1], 0, false⟩,
        Layer.endpoint ⟨Bytes.ofList [2, 3, 4], 0, false⟩])
    let t : Tree StandardPolicy (MemorySink ⊕ GrowingSink) 1 := Layer.endpoint (.inr {})
    let r := Region.allocate 2 .direct
    Source.Unfailing s ∧ Sink.Unfailing t ∧
      (∃ summary, (({} : Plan).runThrough.run ((s, t), r)).answer = .ok summary ∧
        summary.bytes = 4 ∧ summary.rounds = 3) ∧
      ∃ summary, (({ limit := some 4 } : Plan).runThrough.run ((s, t), r)).answer = .ok summary ∧
        summary.bytes = 4 ∧ summary.rounds = 2 := by
  intro s t r
  have hs : Source.Unfailing s := by
    refine Source.unfailing_of_isOpen ((isOpen_chain_new _ _).2 ?_)
    exact List.forall_mem_cons.2 ⟨rfl, List.forall_mem_singleton.2 rfl⟩
  have ht : Sink.Unfailing t := Sink.unfailing_of_isOpen (by exact rfl)
  have hcapacity : r.capacity = 2 := rfl
  refine ⟨hs, ht, ?_, ?_⟩
  · obtain ⟨summary, hanswer, hcounted⟩ := (rounds_exact {} hs ht).1 r rfl (by decide)
    have hbytes : (({} : Plan).runThrough.run ((s, t), r)).answer.map Summary.bytes = .ok 4 := by
      decide +kernel
    rw [hanswer] at hbytes
    have hbytes : summary.bytes = 4 := Except.ok.inj hbytes
    refine ⟨summary, hanswer, hbytes, ?_⟩
    rw [hcounted.short nofun, hbytes, hcapacity]
  · obtain ⟨summary, hanswer, hcounted⟩ :=
      (rounds_exact { limit := some 4 } hs ht).1 r rfl (by decide)
    have hbytes : (({ limit := some 4 } : Plan).runThrough.run ((s, t), r)).answer.map
        Summary.bytes = .ok 4 := by decide +kernel
    rw [hanswer] at hbytes
    have hbytes : summary.bytes = 4 := Except.ok.inj hbytes
    refine ⟨summary, hanswer, hbytes, ?_⟩
    rw [hcounted.limited (congrArg some hbytes.symm), hbytes, hcapacity]
    rfl

end Plan

end ByteFlow
