import ByteFlow.Proofs.Region
import ByteFlow.Transfer.Plan

/-!
# How a transfer goes

One rule for each part of a transfer, in terms of what the source, the sink and the
region do.  The rule for a round, `Plan.ends_round`, is the only place where the round is
taken apart; whatever is said about transfers in rounds is an induction that uses it.

## Main definitions

* `Plan.within p moved n` — what the plan still asks for, of `n` bytes.
* `Plan.ends_round`, `Plan.ends_runBuffered` — transfers in rounds.
* `Plan.ends_moveByte`, `Plan.ends_runUnbuffered` — transfers byte by byte.
* `Plan.ends_run`, `Plan.ends_runThrough` — the choice between the two.
-/

namespace ByteFlow.Plan

open ByteFlow.Action

variable {σ τ : Type}

/-! ## What is still asked for -/

/-- What the plan asks for after `moved` bytes, if there are `n`. -/
def within (p : Plan) (moved n : Nat) : Nat :=
  match p.limit with
  | none => n
  | some limit => min n (limit - moved)

variable (p : Plan) {moved n : Nat}

theorem within_le : p.within moved n ≤ n := by
  rw [within]
  split <;> omega

theorem within_le_limit {limit : Nat} (h : p.limit = some limit) :
    p.within moved n ≤ limit - moved := by
  simp only [within, h]
  omega

theorem within_pos (h : p.wantsMore moved = true) (hn : n ≠ 0) : p.within moved n ≠ 0 := by
  rcases p with ⟨_ | limit, size⟩
  · exact hn
  · simp only [wantsMore, within, decide_eq_true_eq] at *
    omega

/-! ## The window of a round -/

variable {r : Region}

@[simp] theorem position_openWindow : (p.openWindow moved r).position = 0 := by
  rw [openWindow]
  split
  · rfl
  · split
    · simp [Region.setLimit, Region.clear]
    · rfl

@[simp] theorem capacity_openWindow : (p.openWindow moved r).capacity = r.capacity := by
  rw [openWindow]
  split
  · rfl
  · split <;> rfl

@[simp] theorem readOnly_openWindow : (p.openWindow moved r).readOnly = r.readOnly := by
  rw [openWindow]
  split
  · rfl
  · split <;> rfl

/-- The window has room for what is still asked for. -/
theorem remaining_openWindow : (p.openWindow moved r).remaining = p.within moved r.capacity := by
  rcases p with ⟨_ | limit, size⟩
  · rfl
  · simp only [openWindow, within]
    split
    · simp only [Region.remaining, Region.setLimit, Region.clear, Region.capacity] at *
      omega
    · simp only [Region.remaining, Region.clear] at *
      omega

theorem writable_openWindow (h : r.readOnly = false) : (p.openWindow moved r).Writable where
  position_le := by
    rw [position_openWindow]
    exact Nat.zero_le _
  limit_le := by
    have hle : p.within moved r.capacity ≤ r.capacity := p.within_le
    rw [← remaining_openWindow, Region.remaining, position_openWindow, Nat.sub_zero] at hle
    rwa [capacity_openWindow]
  readOnly_eq := by rwa [readOnly_openWindow]

@[simp] theorem list_filled_openWindow : (p.openWindow moved r).filled.list = [] := by
  rw [Region.list_filled, position_openWindow, List.take_zero]

/-! ## The bytes of a round -/

/-- The region of a round, after its window received the bytes `bs`. -/
def loaded (p : Plan) (moved : Nat) (r : Region) (bs : List UInt8) : Region :=
  (p.openWindow moved r).receive bs

section Loaded

variable {bs : List UInt8} {k : Nat}

@[simp] theorem position_loaded : (p.loaded moved r bs).position = bs.length := by
  rw [loaded, Region.position_receive, position_openWindow, Nat.zero_add]

@[simp] theorem remaining_loaded :
    (p.loaded moved r bs).remaining = p.within moved r.capacity - bs.length := by
  rw [loaded, Region.remaining_receive, remaining_openWindow]

/-- What is in hand after `k` of the bytes were handed on. -/
@[simp] theorem remaining_handed :
    ((p.loaded moved r bs).flip.skip k).remaining = bs.length - k := by
  rw [Region.remaining_skip, Region.remaining_flip, position_loaded]

@[simp] theorem readOnly_handed :
    ((p.loaded moved r bs).flip.skip k).readOnly = r.readOnly :=
  p.readOnly_openWindow

variable (h : r.readOnly = false)
include h

theorem list_filled_loaded : (p.loaded moved r bs).filled.list = bs := by
  rw [loaded, Region.list_filled_receive (p.writable_openWindow h).toWellFormed,
    list_filled_openWindow, List.nil_append]

theorem list_window_handed : ((p.loaded moved r bs).flip.skip k).window.list = bs.drop k := by
  rw [Region.list_window_skip, Region.window_flip, p.list_filled_loaded h]

variable (hbs : bs.length ≤ p.within moved r.capacity)
include hbs

theorem capacity_handed : ((p.loaded moved r bs).flip.skip k).capacity = r.capacity := by
  have hreceive : (p.loaded moved r bs).capacity = (p.openWindow moved r).capacity :=
    Region.capacity_receive (p.writable_openWindow h).toWellFormed (by rwa [remaining_openWindow])
  exact hreceive.trans p.capacity_openWindow

theorem wellFormed_flip_loaded : (p.loaded moved r bs).flip.WellFormed := by
  refine Region.WellFormed.flip ((p.writable_openWindow h).toWellFormed.receive ?_)
  rwa [remaining_openWindow]

omit h in
/-- A round that handed on `k` of its bytes was complete if the window was filled and all of
it was taken. -/
theorem hasRemaining_handed (hk : k ≤ bs.length) :
    ((p.loaded moved r bs).hasRemaining || ((p.loaded moved r bs).flip.skip k).hasRemaining) =
      !decide (k = p.within moved r.capacity) := by
  rw [Bool.eq_iff_iff, Bool.or_eq_true_iff, Region.hasRemaining_iff, Region.hasRemaining_iff,
    remaining_loaded, remaining_handed, Bool.not_eq_true', decide_eq_false_iff_not]
  omega

end Loaded

/-! ## In rounds -/

theorem ends_adjust_bind {α ρ : Type} (f : Region → Region) (g : Unit → Action (Channel σ τ × ρ) α)
    (s : σ) (t : τ) (r : Region) (a : ρ) (Q : Except Fault α → Channel σ τ × ρ → Prop) :
    (Action.onFirst (Channel.adjust f) >>= g).Ends (⟨s, t, r⟩, a) Q ↔
      (g ()).Ends (⟨s, t, f r⟩, a) Q := Iff.rfl

theorem ends_fill [Source σ] {ρ : Type} (s : σ) (t : τ) (r : Region) (a : ρ)
    (Q : Except Fault Unit → Channel σ τ × ρ → Prop) :
    (Action.onFirst Channel.fill).Ends (⟨s, t, r⟩, a) Q ↔
      (Source.fill : Action (σ × Region) Unit).Ends (s, r) fun answer q =>
        Q answer (⟨q.1, t, q.2⟩, a) := Iff.rfl

theorem ends_drain [Sink τ] {ρ : Type} (s : σ) (t : τ) (r : Region) (a : ρ)
    (Q : Except Fault Unit → Channel σ τ × ρ → Prop) :
    (Action.onFirst Channel.drain).Ends (⟨s, t, r⟩, a) Q ↔
      (Sink.drain : Action (τ × Region) Unit).Ends (t, r) fun answer q =>
        Q answer (⟨s, q.1, q.2⟩, a) := Iff.rfl

section Rounds

variable [Source σ] [Sink τ]

/-- A round fills the window and drains what was filled; it was the last one if either
side came up short. -/
theorem ends_round (s : σ) (t : τ) (r : Region) (moved rounds : Nat)
    (Q : Except Fault (Option Unit) → Channel σ τ × Progress → Prop) :
    p.round.Ends (⟨s, t, r⟩, ⟨moved, rounds⟩) Q ↔
      if p.wantsMore moved then
        (Source.fill : Action (σ × Region) Unit).Ends (s, p.openWindow moved r) fun filled q =>
          match filled with
          | .error fault => Q (.error fault) (⟨q.1, t, q.2⟩, ⟨moved, rounds⟩)
          | .ok _ =>
            (Sink.drain : Action (τ × Region) Unit).Ends (t, q.2.flip) fun drained u =>
              match drained with
              | .error fault => Q (.error fault) (⟨q.1, u.1, u.2⟩, ⟨moved, rounds⟩)
              | .ok _ =>
                Q (.ok (if q.2.hasRemaining || u.2.hasRemaining then some () else none))
                  (⟨q.1, u.1, u.2⟩, ⟨moved + (q.2.position - u.2.remaining), rounds + 1⟩)
      else Q (.ok (some ())) (⟨s, t, r.clear⟩, ⟨moved, rounds⟩) := by
  rw [round, ends_gets_bind]
  by_cases hwants : p.wantsMore moved = true
  · simp only [hwants, if_true]
    rw [ends_adjust_bind, ends_bind, ends_fill]
    refine ends_congr fun filled q => ?_
    rcases filled with fault | _
    · rfl
    rw [ends_gets_bind, ends_adjust_bind, ends_gets_bind, ends_bind,
      ends_drain]
    refine ends_congr fun drained u => ?_
    rcases drained with fault | _
    · rfl
    · dsimp only
      rw [ends_gets_bind, ends_gets_bind, ends_bind, ends_onSecond, ends_modify]
      dsimp only
      rw [ends_gets_bind, ends_emit_bind, ends_pure]
      rfl
  · simp only [hwants, if_false, Bool.false_eq_true]
    rfl

variable [Supply σ]

/-- The rounds begin with nothing moved, and their counters make up the summary. -/
theorem ends_runBuffered (c : Channel σ τ) (Q : Except Fault Summary → Channel σ τ → Prop) :
    p.runBuffered.Ends c Q ↔
      (repeatUntil (Supply.supply c.source + 1) p.round (pure ())).Ends (c, ⟨0, 0⟩)
        fun answer q =>
          Q (answer.map fun _ =>
            ⟨q.2.moved, q.2.rounds, .buffered c.region.placement c.region.capacity⟩) q.1 := by
  rw [runBuffered, ends_gets_bind, ends_gets_bind, ends_bind, ends_alongside]
  refine ends_congr fun answer q => ?_
  cases answer <;> rfl

theorem ends_runBetween (s : σ) (t : τ) (r : Region)
    (Q : Except Fault Summary → (σ × τ) × Region → Prop) :
    p.runBetween.Ends ((s, t), r) Q ↔
      p.runBuffered.Ends ⟨s, t, r⟩ fun answer c => Q answer ((c.source, c.target), c.region) :=
  Iff.rfl

/-! ## Byte by byte -/

omit [Supply σ] in
/-- A byte that was read is written at once, and is lost if it cannot be. -/
theorem ends_moveByte (s : σ) (t : τ) (moved : Nat)
    (Q : Except Fault (Option Unit) → (σ × τ) × Nat → Prop) :
    p.moveByte.Ends ((s, t), moved) Q ↔
      if p.wantsMore moved then
        (Source.readU8 : Action σ UInt8).Ends s fun answer s =>
          match answer with
          | .ok b =>
            (Sink.writeU8 b : Action τ Unit).Ends t fun answer t =>
              match answer with
              | .ok _ => Q (.ok none) ((s, t), moved + 1)
              | .error fault => Q (.error fault) ((s, t), moved)
          | .error .endOfStream => Q (.ok (some ())) ((s, t), moved)
          | .error fault => Q (.error fault) ((s, t), moved)
      else Q (.ok (some ())) ((s, t), moved) := by
  rw [moveByte, ends_gets_bind]
  by_cases hwants : p.wantsMore moved = true
  · simp only [hwants, if_true]
    rw [ends_attempt_bind, ends_onFirst, ends_onFirst]
    refine ends_congr fun answer s => ?_
    rcases answer with fault | b
    · cases fault <;> rfl
    · dsimp only
      rw [ends_bind, ends_onFirst, ends_onSecond]
      refine ends_congr fun answer t => ?_
      cases answer <;> rfl
  · simp only [hwants, if_false, Bool.false_eq_true]
    rfl

theorem ends_runUnbuffered (s : σ) (t : τ) (Q : Except Fault Summary → σ × τ → Prop) :
    p.runUnbuffered.Ends (s, t) Q ↔
      (repeatUntil (Supply.supply s + 1) p.moveByte (pure ())).Ends ((s, t), 0) fun answer q =>
        Q (answer.map fun _ => ⟨q.2, q.2, .unbuffered⟩) q.1 := by
  rw [runUnbuffered, ends_gets_bind, ends_bind, ends_alongside]
  refine ends_congr fun answer q => ?_
  cases answer <;> rfl

/-! ## Whole transfers -/

/-- Where a transfer that picks its own way goes in rounds, and through what. -/
def placement (p : Plan) (s : σ) (t : τ) : Option Placement :=
  if p.bufferSize = 0 then none
  else (Preference.negotiate (Source.preference s) (Sink.preference t)).placement

theorem ends_run (h : p.bufferSize ≤ maxBufferSize) (s : σ) (t : τ)
    (Q : Except Fault Summary → σ × τ → Prop) :
    p.run.Ends (s, t) Q ↔
      match p.placement s t with
      | some placement =>
        p.runBetween.Ends ((s, t), Region.allocate p.capacity placement) fun answer q =>
          Q answer q.1
      | none => p.runUnbuffered.Ends (s, t) Q := by
  rw [run, if_neg (Nat.not_lt.2 h), ends_gets_bind, placement]
  rcases hplacement :
    (Preference.negotiate (Source.preference s) (Sink.preference t)).placement with _ | place
  · simp only [ite_self]
    rw [ends_emit_bind]
  · rcases hsize : p.bufferSize with _ | size
    · simp only [if_true]
      rw [ends_emit_bind]
    · simp only [Nat.succ_ne_zero, if_false]
      rw [ends_emit_bind, ends_bind, ends_alongside]
      refine ends_congr fun answer q => ?_
      cases answer <;> rfl

theorem ends_runThrough {r : Region} (h : r.readOnly = false) (s : σ) (t : τ)
    (Q : Except Fault Summary → (σ × τ) × Region → Prop) :
    p.runThrough.Ends ((s, t), r) Q ↔
      if r.capacity = 0 then
        if p.limit.isSome then Q (.error (.misuse .emptyBuffer)) ((s, t), r)
        else p.runUnbuffered.Ends (s, t) fun answer q => Q answer (q, r)
      else p.runBetween.Ends ((s, t), r) Q := by
  rw [runThrough, ends_gets_bind]
  simp only [h, Bool.false_eq_true, if_false]
  rw [ends_gets_bind]
  by_cases hcapacity : r.capacity = 0
  · simp only [hcapacity, if_true]
    by_cases hlimit : p.limit.isSome = true
    · simp only [hlimit, if_true]
      rfl
    · simp only [hlimit, if_false, Bool.false_eq_true]
      rfl
  · simp only [hcapacity, if_false]

/-- A transfer that picks its own way is refused, or it goes byte by byte or in rounds. -/
theorem ends_run_of {s : σ} {t : τ} {Q : Except Fault Summary → σ × τ → Prop}
    (hrefused : ∀ fault, Q (.error fault) (s, t)) (hsingles : p.runUnbuffered.Ends (s, t) Q)
    (hrounds : ∀ r : Region, r.Writable →
      p.runBetween.Ends ((s, t), r) fun answer q => Q answer q.1) : p.run.Ends (s, t) Q := by
  by_cases hsize : p.bufferSize ≤ maxBufferSize
  · rw [ends_run p hsize]
    cases p.placement s t with
    | none => exact hsingles
    | some placement => exact hrounds _ (Region.writable_allocate p.capacity placement)
  · rw [run, if_pos (Nat.lt_of_not_le hsize)]
    exact hrefused _

/-- So does a transfer through a region of the caller. -/
theorem ends_runThrough_of {s : σ} {t : τ} {r : Region}
    {Q : Except Fault Summary → (σ × τ) × Region → Prop}
    (hrefused : ∀ fault, Q (.error fault) ((s, t), r))
    (hsingles : p.runUnbuffered.Ends (s, t) fun answer q => Q answer (q, r))
    (hrounds : r.readOnly = false → p.runBetween.Ends ((s, t), r) Q) :
    p.runThrough.Ends ((s, t), r) Q := by
  cases hreadOnly : r.readOnly with
  | true =>
    rw [runThrough, ends_gets_bind, if_pos hreadOnly]
    exact hrefused _
  | false =>
    rw [ends_runThrough p hreadOnly]
    by_cases hcapacity : r.capacity = 0
    · rw [if_pos hcapacity]
      by_cases hlimit : p.limit.isSome = true
      · rw [if_pos hlimit]
        exact hrefused _
      · rw [if_neg hlimit]
        exact hsingles
    · rw [if_neg hcapacity]
      exact hrounds hreadOnly

end Rounds

end ByteFlow.Plan
