import ByteFlow.Proofs.Bounds.Calls
import ByteFlow.Proofs.Transfer.Conservation

/-!
# Transfers that stay in bounds

A round narrows the window to what is still asked for, so no more than that is staged, and no more
than what is staged is drained.  This keeps the count of a transfer within its limit from round to
round, for as many rounds as there are, and it does not matter how the last one ends.

## Main definitions

* `Plan.InLoop` — the invariant of the loop, between two rounds.
* `Plan.Reckoned` — the numbers of a round stay within the limit.
* `Plan.BufferedMeets`, `Plan.UnbufferedMeets` — the hazards of a transfer.
* `Plan.buffered_averted`, `Plan.unbuffered_averted` — all of them are averted.
* `Plan.ends_run_inBounds`, `Plan.ends_runThrough_inBounds` — what a transfer leaves is in bounds.
-/

namespace ByteFlow

open ByteFlow.Action

variable {σ τ : Type} {hazard : Hazard}

/-- A region that only gives bytes still does, and still gives the same. -/
structure Region.Kept (r q : Region) : Prop where
  readOnly_eq : q.readOnly = r.readOnly
  bytes_eq : r.readOnly = true → q.bytes = r.bytes

namespace Region.Kept

variable {r q p : Region}

theorem refl (r : Region) : r.Kept r := ⟨rfl, fun _ => rfl⟩

theorem trans (h : r.Kept q) (h' : q.Kept p) : r.Kept p where
  readOnly_eq := h'.readOnly_eq.trans h.readOnly_eq
  bytes_eq hr := (h'.bytes_eq (h.readOnly_eq.trans hr)).trans (h.bytes_eq hr)

theorem of_writable (hr : r.readOnly = false) (hq : q.readOnly = false) : r.Kept q :=
  ⟨hq.trans hr.symm, fun h => nomatch hr.symm.trans h⟩

end Region.Kept

theorem Region.Onward.kept {r q : Region} (h : r.Onward q) : r.Kept q :=
  ⟨h.readOnly_eq, h.bytes_eq⟩

namespace Plan

variable [Source σ] [Sink τ] (p : Plan)

/-! ## The loop -/

/-- How many bytes the round that begins here stages for the target. -/
def staged (a : Channel σ τ × Progress) : Nat := (p.filling a).state.2.flip.remaining

/-- How many of them are left when the target was asked. -/
def leftOver (a : Channel σ τ × Progress) : Nat := (p.draining a).state.2.remaining

/-- The numbers of the round that begins here: no more was moved than is asked for, no more is
staged than the window allows, no more is drained than was staged, and no more will have been moved
than is asked for. -/
structure Reckoned (a : Channel σ τ × Progress) : Prop where
  moved_le : ∀ {limit}, p.limit = some limit → a.2.moved ≤ limit
  staged_le : p.staged a ≤ (p.openWindow a.2.moved a.1.region).limit
  leftOver_le : p.leftOver a ≤ p.staged a
  total_le : ∀ {limit}, p.limit = some limit →
    a.2.moved + (p.staged a - p.leftOver a) ≤ limit

/-- Between two rounds both streams are as they have to be, the window of the region lies inside
the bytes, and no more was moved than is asked for. -/
structure InLoop (I : σ → Prop) (J : τ → Prop) (a : Channel σ τ × Progress) : Prop where
  source : I a.1.source
  target : J a.1.target
  wellFormed : a.1.region.WellFormed
  readOnly_eq : a.1.region.readOnly = false
  moved_le : ∀ {limit}, p.limit = some limit → a.2.moved ≤ limit

variable {p} {I : σ → Prop} {J : τ → Prop} (hs : Source.Steady I) (ht : Sink.Steady J)

theorem limit_openWindow (moved : Nat) (r : Region) :
    (p.openWindow moved r).limit = p.within moved r.capacity := by
  rw [← remaining_openWindow, Region.remaining, position_openWindow, Nat.sub_zero]

namespace InLoop

variable {a : Channel σ τ × Progress}

omit [Source σ] [Sink τ] in
theorem window (h : p.InLoop I J a) : (p.openWindow a.2.moved a.1.region).WellFormed :=
  (p.writable_openWindow h.readOnly_eq).toWellFormed

include hs

omit [Sink τ] in
theorem filling (h : p.InLoop I J a) : I (p.filling a).state.1 ∧
    (p.openWindow a.2.moved a.1.region).Onward (p.filling a).state.2 :=
  hs.fill.ends h.source h.window

omit [Sink τ] in
theorem flipped (h : p.InLoop I J a) : (p.filling a).state.2.flip.WellFormed :=
  ((h.filling hs).2.wellFormed h.window).flip

include ht

theorem draining (h : p.InLoop I J a) : J (p.draining a).state.1 ∧
    (p.filling a).state.2.flip.Onward (p.draining a).state.2 :=
  ht.drain.ends h.target (h.flipped hs)

theorem drained (h : p.InLoop I J a) : (p.draining a).state.2.WellFormed :=
  (h.draining hs ht).2.wellFormed (h.flipped hs)

theorem reckoned (h : p.InLoop I J a) : p.Reckoned a := by
  have hfill := (h.filling hs).2
  have hdrain := (h.draining hs ht).2
  have hstaged : p.staged a ≤ (p.openWindow a.2.moved a.1.region).limit := by
    rw [staged, Region.remaining_flip, ← hfill.limit_eq]
    exact hfill.position_le_limit
  have hleft : p.leftOver a ≤ p.staged a := by
    rw [leftOver, staged, Region.remaining, Region.remaining, hdrain.limit_eq]
    exact Nat.sub_le_sub_left hdrain.position_le _
  refine ⟨h.moved_le, hstaged, hleft, fun {limit} hlimit => ?_⟩
  have hmoved := h.moved_le hlimit
  have hwithin : p.within a.2.moved a.1.region.capacity ≤ limit - a.2.moved :=
    p.within_le_limit hlimit
  rw [limit_openWindow] at hstaged
  omega

/-- Where a round that was drained leaves the channel. -/
theorem of_drained (h : p.InLoop I J a) {progress : Progress}
    (hmoved : ∀ {limit}, p.limit = some limit → progress.moved ≤ limit) :
    p.InLoop I J (p.drained a, progress) where
  source := (h.filling hs).1
  target := (h.draining hs ht).1
  wellFormed := h.drained hs ht
  readOnly_eq := by
    change (p.draining a).state.2.readOnly = false
    rw [(h.draining hs ht).2.readOnly_eq]
    change (p.filling a).state.2.readOnly = false
    rw [(h.filling hs).2.readOnly_eq, readOnly_openWindow, h.readOnly_eq]
  moved_le := hmoved

end InLoop

section Rounds

include hs ht

/-- The round that begins in the invariant ends in it, whatever it answers. -/
theorem keeps_round : Keeps (p.InLoop I J) (p.round : Action (Channel σ τ × Progress) _) := by
  intro a ha
  by_cases hwants : p.wantsMore a.2.moved = true
  · rcases cases_of_wants hwants with ⟨fault, hfails⟩ | ⟨fault, hfails⟩ | hcompletes
    · refine (round_of_failsFilling hfails).mono ?_
      rintro answer _ ⟨-, rfl⟩
      obtain ⟨hsource, honward⟩ := ha.filling hs
      refine ⟨hsource, ha.target, honward.wellFormed ha.window, ?_, ha.moved_le⟩
      exact honward.readOnly_eq.trans (p.readOnly_openWindow.trans ha.readOnly_eq)
    · refine (round_of_failsDraining hfails).mono ?_
      rintro answer _ ⟨-, rfl⟩
      exact ha.of_drained hs ht ha.moved_le
    · refine (round_of_completes hcompletes).mono ?_
      rintro answer _ ⟨-, rfl⟩
      exact ha.of_drained hs ht (ha.reckoned hs ht).total_le
  · refine (round_of_enough (Bool.eq_false_iff.2 hwants)).mono ?_
    rintro answer _ ⟨-, rfl⟩
    exact ⟨ha.source, ha.target, .clear _, ha.readOnly_eq, ha.moved_le⟩

/-- The turn of a transfer byte by byte. -/
theorem keeps_moveByte : Keeps
    (fun q => I q.1.1 ∧ J q.1.2 ∧ ∀ {limit}, p.limit = some limit → q.2 ≤ limit)
    (p.moveByte : Action ((σ × τ) × Nat) _) := by
  rintro ⟨⟨s, t⟩, moved⟩ ⟨hI, hJ, hmoved⟩
  rw [ends_moveByte]
  by_cases hwants : p.wantsMore moved = true
  · rw [if_pos hwants]
    refine (hs.readU8 s hI).mono fun answer s' hI' => ?_
    rcases answer with fault | b
    · cases fault <;> exact ⟨hI', hJ, hmoved⟩
    · refine (ht.writeU8 b t hJ).mono fun answer t' hJ' => ?_
      cases answer with
      | error fault => exact ⟨hI', hJ', hmoved⟩
      | ok _ =>
        refine ⟨hI', hJ', fun {limit} hlimit => ?_⟩
        simpa [wantsMore, hlimit] using hwants
  · rw [if_neg hwants]
    exact ⟨hI, hJ, hmoved⟩

end Rounds

/-! ## Hazards -/

/-- The hazards of the round that begins here, given those of a fill and of a drain. -/
inductive RoundMeets (fillMeets : σ → Region → Hazard → Prop)
    (drainMeets : τ → Region → Hazard → Prop) (p : Plan) (a : Channel σ τ × Progress) :
    Hazard → Prop
  | region {hazard : Hazard} : a.1.region.Meets hazard → RoundMeets fillMeets drainMeets p a hazard
  | quota {limit : Nat} : p.limit = some limit →
    RoundMeets fillMeets drainMeets p a (.subtract limit a.2.moved)
  | window {hazard : Hazard} : (p.openWindow a.2.moved a.1.region).Meets hazard →
    RoundMeets fillMeets drainMeets p a hazard
  | fill {hazard : Hazard} : fillMeets a.1.source (p.openWindow a.2.moved a.1.region) hazard →
    RoundMeets fillMeets drainMeets p a hazard
  | filled {hazard : Hazard} : (p.filling a).state.2.Meets hazard →
    RoundMeets fillMeets drainMeets p a hazard
  | flipped {hazard : Hazard} : (p.filling a).state.2.flip.Meets hazard →
    RoundMeets fillMeets drainMeets p a hazard
  | drain {hazard : Hazard} : drainMeets a.1.target (p.filling a).state.2.flip hazard →
    RoundMeets fillMeets drainMeets p a hazard
  | left {hazard : Hazard} : (p.draining a).state.2.Meets hazard →
    RoundMeets fillMeets drainMeets p a hazard
  | drained : RoundMeets fillMeets drainMeets p a (.subtract (p.staged a) (p.leftOver a))

/-- The hazards of a transfer in rounds: those of all of its rounds. -/
def BufferedMeets (fillMeets : σ → Region → Hazard → Prop)
    (drainMeets : τ → Region → Hazard → Prop) (p : Plan) (c : Channel σ τ) (hazard : Hazard) :
    Prop :=
  ∃ a, Visits p.round (c, ⟨0, 0⟩) a ∧ RoundMeets fillMeets drainMeets p a hazard

/-- The hazards of a transfer byte by byte: those of the bytes that are read and written. -/
def UnbufferedMeets (readMeets : σ → Hazard → Prop) (writeMeets : τ → Hazard → Prop) (p : Plan)
    (s : σ) (t : τ) (hazard : Hazard) : Prop :=
  ∃ q, Visits p.moveByte ((s, t), 0) q ∧ (readMeets q.1.1 hazard ∨ writeMeets q.1.2 hazard)

section Averted

variable {s : σ} {t : τ} (hI : I s) (hJ : J t)
include hs ht hI hJ

/-- Between any two rounds, and there may be any number of them. -/
theorem inLoop_of_visits {r : Region} (hr : r.WellFormed) (hwritable : r.readOnly = false)
    {a : Channel σ τ × Progress} (hvisits : Visits p.round (⟨s, t, r⟩, ⟨0, 0⟩) a) :
    p.InLoop I J a :=
  (keeps_round hs ht).visits hvisits ⟨hI, hJ, hr, hwritable, fun _ => Nat.zero_le _⟩

theorem moved_le_of_visits {q : (σ × τ) × Nat} (hvisits : Visits p.moveByte ((s, t), 0) q) :
    I q.1.1 ∧ J q.1.2 ∧ ∀ {limit}, p.limit = some limit → q.2 ≤ limit :=
  (keeps_moveByte hs ht).visits hvisits ⟨hI, hJ, fun _ => Nat.zero_le _⟩

theorem buffered_averted {fillMeets : σ → Region → Hazard → Prop}
    {drainMeets : τ → Region → Hazard → Prop}
    (hfill : ∀ {s r}, I s → r.WellFormed → fillMeets s r hazard → hazard.Averted)
    (hdrain : ∀ {t r}, J t → r.WellFormed → drainMeets t r hazard → hazard.Averted)
    {r : Region} (hr : r.WellFormed) (hwritable : r.readOnly = false)
    (h : BufferedMeets fillMeets drainMeets p ⟨s, t, r⟩ hazard) : hazard.Averted := by
  obtain ⟨a, hvisits, hmeets⟩ := h
  have ha := inLoop_of_visits hs ht hI hJ hr hwritable hvisits
  cases hmeets with
  | region hmeets => exact ha.wellFormed.averted hmeets
  | quota hlimit => exact ha.moved_le hlimit
  | window hmeets => exact ha.window.averted hmeets
  | fill hmeets => exact hfill ha.source ha.window hmeets
  | filled hmeets => exact ((ha.filling hs).2.wellFormed ha.window).averted hmeets
  | flipped hmeets => exact (ha.flipped hs).averted hmeets
  | drain hmeets => exact hdrain ha.target (ha.flipped hs) hmeets
  | left hmeets => exact (ha.drained hs ht).averted hmeets
  | drained => exact (ha.reckoned hs ht).leftOver_le

theorem unbuffered_averted {readMeets : σ → Hazard → Prop} {writeMeets : τ → Hazard → Prop}
    (hread : ∀ {s}, I s → readMeets s hazard → hazard.Averted)
    (hwrite : ∀ {t}, J t → writeMeets t hazard → hazard.Averted)
    (h : UnbufferedMeets readMeets writeMeets p s t hazard) : hazard.Averted := by
  obtain ⟨q, hvisits, hmeets⟩ := h
  obtain ⟨hI', hJ', -⟩ := moved_le_of_visits hs ht hI hJ hvisits
  rcases hmeets with hmeets | hmeets
  · exact hread hI' hmeets
  · exact hwrite hJ' hmeets

/-! ## What a transfer leaves -/

variable [Supply σ]

theorem ends_runUnbuffered_inBounds :
    p.runUnbuffered.Ends (s, t) fun _ q => I q.1 ∧ J q.2 := by
  rw [ends_runUnbuffered]
  have hloop := (keeps_moveByte (p := p) hs ht).repeatUntil (.pure ()) (Supply.supply s + 1)
  exact (hloop ((s, t), 0) ⟨hI, hJ, fun _ => Nat.zero_le _⟩).mono fun _ q hq => ⟨hq.1, hq.2.1⟩

theorem ends_runBetween_inBounds {r : Region} (hr : r.WellFormed) (hwritable : r.readOnly = false) :
    p.runBetween.Ends ((s, t), r) fun _ q =>
      (I q.1.1 ∧ J q.1.2) ∧ q.2.WellFormed ∧ r.Kept q.2 := by
  rw [ends_runBetween, ends_runBuffered]
  have hloop := (keeps_round (p := p) hs ht).repeatUntil (.pure ()) (Supply.supply s + 1)
  refine (hloop (⟨s, t, r⟩, ⟨0, 0⟩) ⟨hI, hJ, hr, hwritable, fun _ => Nat.zero_le _⟩).mono ?_
  rintro answer a ha
  exact ⟨⟨ha.source, ha.target⟩, ha.wellFormed, .of_writable hwritable ha.readOnly_eq⟩

/-- A transfer through a region of its own. -/
theorem ends_run_inBounds : p.run.Ends (s, t) fun _ q => I q.1 ∧ J q.2 := by
  refine ends_run_of p (fun _ => ⟨hI, hJ⟩) (ends_runUnbuffered_inBounds hs ht hI hJ) ?_
  intro r hr
  exact (ends_runBetween_inBounds hs ht hI hJ hr.toWellFormed hr.readOnly_eq).mono
    fun _ q hq => hq.1

/-- A transfer through a region of the caller, which is refused if it only gives bytes. -/
theorem ends_runThrough_inBounds {r : Region} (hr : r.WellFormed) :
    p.runThrough.Ends ((s, t), r) fun _ q =>
      (I q.1.1 ∧ J q.1.2) ∧ q.2.WellFormed ∧ r.Kept q.2 :=
  ends_runThrough_of p (fun _ => ⟨⟨hI, hJ⟩, hr, .refl r⟩)
    ((ends_runUnbuffered_inBounds hs ht hI hJ).mono fun _ _ hq => ⟨hq, hr, .refl r⟩)
    (ends_runBetween_inBounds hs ht hI hJ hr)

end Averted

end Plan

end ByteFlow
