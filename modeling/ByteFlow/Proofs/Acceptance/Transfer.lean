import ByteFlow.Proofs.Acceptance.Sink
import ByteFlow.Proofs.Transfer.Conservation

/-!
# What a transfer gives its target

A transfer may go byte by byte or in rounds, and either side may fail.  What the target was given
are bytes from the front of those that came out of the source, and when the transfer succeeds its
summary counts them.

Byte by byte, the two sides are never apart by more than the byte that is on its way.

## Main definitions

* `Plan.Conveyed` — what a transfer has given its target.
* `Plan.ends_run_conveyed`, `Plan.ends_runThrough_conveyed` — every transfer gives it.
* `Plan.ends_run_target`, `Plan.ends_runThrough_target` — what the operations of the target keep, a
  transfer keeps of it.
-/

namespace ByteFlow.Plan

open ByteFlow.Action

variable {σ τ : Type} [Source σ] [Meter σ]

/-- The bytes that a transfer has given its target: they are in front of those that it took from the
source, of which there are no more than it was asked for, and if it succeeds it counts them. -/
def Conveyed (p : Plan) (s : σ) (answer : Except Fault Summary) (s' : σ)
    (given : List UInt8) : Prop :=
  ∃ taken, Moved s taken s' ∧ given <+: taken ∧
    (∀ limit, p.limit = some limit → taken.length ≤ limit) ∧
    ∀ summary, answer = .ok summary → summary.bytes = given.length

variable {p : Plan} {s : σ}

omit [Source σ] in
/-- A transfer that is refused has given nothing. -/
theorem conveyed_refused (fault : Fault) : p.Conveyed s (.error fault) s [] :=
  ⟨[], Meter.refl s, List.prefix_rfl, fun _ _ => Nat.zero_le _, nofun⟩

omit [Source σ] in
/-- A transfer that has given all that it took. -/
theorem conveyed_all {s' : σ} {answer : Except Fault Summary} {bs : List UInt8}
    (hs : Moved s bs s') (hlimit : ∀ limit, p.limit = some limit → bs.length ≤ limit)
    (hbytes : ∀ summary, answer = .ok summary → summary.bytes = bs.length) :
    p.Conveyed s answer s' bs :=
  ⟨bs, hs, List.prefix_rfl, hlimit, hbytes⟩

variable [Sink τ] [Meter τ] {t : τ}

/-! ## In rounds -/

/-- Bytes that are accounted for are in front of those that were taken, for the region has the
others. -/
theorem Accounted.conveyed {start final : Channel σ τ} {answer : Except Fault Summary}
    {taken given : List UInt8} (h : p.Accounted start answer final taken given) :
    p.Conveyed start.source answer final.source given := by
  refine ⟨taken, h.source, ?_, fun _ => h.limit, fun _ => h.bytes⟩
  cases answer with
  | ok summary =>
    by_cases hrefused : p.RefusesLast start summary.rounds
    · exact ⟨_, (h.refused rfl hrefused).symm⟩
    · rw [h.accepted rfl hrefused]
  | error fault =>
    rcases h.failed rfl with hfill | hdrain
    · exact ⟨_, (h.filling rfl hfill).symm⟩
    · exact ⟨_, (h.draining rfl hdrain).symm⟩

variable [Supply σ] [MeteredSource σ]

theorem ends_runBetween_conveyed [MeteredSink τ] (p : Plan) (s : σ) (t : τ) {r : Region}
    (hr : r.readOnly = false) :
    p.runBetween.Ends ((s, t), r) fun answer q =>
      ∃ given, Moved t given q.1.2 ∧ p.Conveyed s answer q.1.1 given := by
  rw [ends_runBetween, ends_runBuffered]
  have hinitial : p.Underway (⟨s, t, r⟩ : Channel σ τ) 0 [] (⟨s, t, r⟩, ⟨0, 0⟩) :=
    Underway.initial hr
  refine (hinitial.ends_rounds _ (.buffered r.placement r.capacity)).mono ?_
  rintro answer q ⟨taken, given, haccounted⟩
  exact ⟨given, haccounted.target, haccounted.conveyed⟩

/-! ## Byte by byte -/

variable [CandidSource σ] [OrderlySink τ]

omit [Supply σ] [MeteredSource σ] in
/-- The induction is on the turns: between two of them both sides have seen the same bytes. -/
theorem ends_singles_conveyed (turns : Nat) {s' : σ} {t' : τ} {bs : List UInt8}
    (hs : Moved s bs s') (ht : Moved t bs t')
    (hlimit : ∀ limit, p.limit = some limit → bs.length ≤ limit) :
    (repeatUntil turns p.moveByte (pure ())).Ends ((s', t'), bs.length) fun answer q =>
      ∃ given, Moved t given q.1.2 ∧
        p.Conveyed s (answer.map fun _ => ⟨q.2, q.2, .unbuffered⟩) q.1.1 given := by
  induction turns generalizing s' t' bs with
  | zero => exact ⟨bs, ht, conveyed_all hs hlimit fun _ h => by cases h; rfl⟩
  | succ turns ih =>
    rw [ends_repeatUntil_succ, ends_moveByte]
    by_cases hwants : p.wantsMore bs.length = true
    · rw [if_pos hwants]
      refine (CandidSource.readU8 s' trivial).mono ?_
      rintro answer s'' ⟨new, hnew, htold⟩
      rcases answer with fault | b
      · have hnone : new.length < 1 := htold
        obtain rfl := List.length_eq_zero_iff.1 (Nat.lt_one_iff.1 hnone)
        have hs'' := Meter.trans_nil hs hnew
        -- the end of the source is the end of the transfer, and other faults are its answer
        cases fault with
        | endOfStream => exact ⟨bs, ht, conveyed_all hs'' hlimit fun _ h => by cases h; rfl⟩
        | _ => exact ⟨bs, ht, conveyed_all hs'' hlimit fun _ h => by cases h⟩
      · obtain ⟨hone, rfl⟩ := htold
        obtain ⟨b, rfl⟩ := List.length_eq_one_iff.1 hone
        have hs'' := Meter.trans hs hnew
        have hlength : (bs ++ [b]).length = bs.length + 1 := List.length_append
        have hlimit' : ∀ limit, p.limit = some limit → (bs ++ [b]).length ≤ limit := by
          intro limit heq
          rw [wantsMore, heq] at hwants
          rw [hlength]
          exact of_decide_eq_true hwants
        refine (OrderlySink.writeU8 t' b trivial).mono ?_
        intro answer t'' hwritten
        rcases answer with fault | _
        · exact ⟨bs, Meter.trans_nil ht hwritten, bs ++ [b], hs'', List.prefix_append .., hlimit',
            fun _ h => by cases h⟩
        · have hgoes := ih hs'' (Meter.trans ht hwritten) hlimit'
          rwa [hlength] at hgoes
    · rw [if_neg hwants]
      exact ⟨bs, ht, conveyed_all hs hlimit fun _ h => by cases h; rfl⟩

omit [MeteredSource σ] in
theorem ends_runUnbuffered_conveyed (p : Plan) (s : σ) (t : τ) :
    p.runUnbuffered.Ends (s, t) fun answer q =>
      ∃ given, Moved t given q.2 ∧ p.Conveyed s answer q.1 given := by
  rw [ends_runUnbuffered]
  exact ends_singles_conveyed _ (Meter.refl s) (Meter.refl t) fun _ _ => Nat.zero_le _

/-! ## Whole transfers -/

/-- Whatever way a transfer goes, and whatever fails on either side. -/
theorem ends_run_conveyed (p : Plan) (s : σ) (t : τ) :
    p.run.Ends (s, t) fun answer q =>
      ∃ given, Moved t given q.2 ∧ p.Conveyed s answer q.1 given :=
  ends_run_of p (fun _ => ⟨[], Meter.refl t, conveyed_refused _⟩)
    (ends_runUnbuffered_conveyed p s t)
    fun _ hr => ends_runBetween_conveyed p s t hr.readOnly_eq

/-- The same through a region of the caller, whether or not it can be used. -/
theorem ends_runThrough_conveyed (p : Plan) (s : σ) (t : τ) (r : Region) :
    p.runThrough.Ends ((s, t), r) fun answer q =>
      ∃ given, Moved t given q.1.2 ∧ p.Conveyed s answer q.1.1 given :=
  ends_runThrough_of p (fun _ => ⟨[], Meter.refl t, conveyed_refused _⟩)
    (ends_runUnbuffered_conveyed p s t) (ends_runBetween_conveyed p s t)

/-! ## What a transfer keeps of its target -/

section Keeps

variable {J : τ → Prop} (h : Sink.Keeps J)
include h

omit [Meter σ] [Meter τ] [OrderlySink τ] [Supply σ] [MeteredSource σ] [CandidSource σ]

theorem keeps_target_moveByte (p : Plan) :
    Keeps (fun q => J q.1.2) (p.moveByte : Action ((σ × τ) × Nat) _) := by
  refine (Keeps.gets _).bind fun moved => ?_
  by_cases hwants : p.wantsMore moved = true
  · rw [if_pos hwants]
    have hread : Keeps (fun q => J q.1.2)
        (onFirst (onFirst Source.readU8) : Action ((σ × τ) × Nat) UInt8) := fun _ hq => hq
    refine hread.attempt.bind fun answer => ?_
    rcases answer with fault | b
    · cases fault with
      | endOfStream => exact .pure _
      | _ => exact .fail _
    · have hwrite : Keeps (fun q => J q.1.2)
          (onFirst (onSecond (Sink.writeU8 b)) : Action ((σ × τ) × Nat) Unit) :=
        fun q hq => h.writeU8 b q.1.2 hq
      exact hwrite.bind fun _ q hq => hq
  · rw [if_neg hwants]
    exact .pure _

theorem keeps_target_round (p : Plan) :
    Keeps (fun a => J a.1.target) (p.round : Action (Channel σ τ × Progress) _) := by
  rintro ⟨⟨s, t, r⟩, ⟨moved, rounds⟩⟩ ht
  rw [ends_round]
  by_cases hwants : p.wantsMore moved = true
  · rw [if_pos hwants, Ends]
    rcases ((Source.fill : Action (σ × Region) Unit).run
      (s, p.openWindow moved r)).answer with fault | _
    · exact ht
    · refine (h.drain (t, _) ht).mono ?_
      intro drained u hu
      cases drained with
      | error fault => exact hu
      | ok _ => exact hu
  · rw [if_neg hwants]
    exact ht

variable [Supply σ]

theorem ends_runUnbuffered_target (p : Plan) (s : σ) {t : τ} (ht : J t) :
    p.runUnbuffered.Ends (s, t) fun _ q => J q.2 := by
  rw [ends_runUnbuffered]
  exact (keeps_target_moveByte h p).repeatUntil (.pure ()) _ ((s, t), 0) ht

theorem ends_runBetween_target (p : Plan) (s : σ) {t : τ} (ht : J t) (r : Region) :
    p.runBetween.Ends ((s, t), r) fun _ q => J q.1.2 := by
  rw [ends_runBetween, ends_runBuffered]
  exact (keeps_target_round h p).repeatUntil (.pure ()) _ (⟨s, t, r⟩, ⟨0, 0⟩) ht

theorem ends_run_target (p : Plan) (s : σ) {t : τ} (ht : J t) :
    p.run.Ends (s, t) fun _ q => J q.2 :=
  ends_run_of p (fun _ => ht) (ends_runUnbuffered_target h p s ht)
    fun r _ => ends_runBetween_target h p s ht r

theorem ends_runThrough_target (p : Plan) (s : σ) {t : τ} (ht : J t) (r : Region) :
    p.runThrough.Ends ((s, t), r) fun _ q => J q.1.2 :=
  ends_runThrough_of p (fun _ => ht) (ends_runUnbuffered_target h p s ht)
    fun _ => ends_runBetween_target h p s ht r

end Keeps

end ByteFlow.Plan
