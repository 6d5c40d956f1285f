import ByteFlow.Proofs.Meter.Depletion
import ByteFlow.Proofs.Transfer.Conservation

/-!
# Transfers end by themselves

A transfer in rounds has a bound on its rounds, and the bound is never what ends it: a
round that is not the last one takes at least one byte, and the source has no more bytes
than its supply.

## Main definitions

* `Plan.Finishes` — a run of rounds that ended with a last round, or with a fault.
* `Plan.ends_runBetween_finishes` — every transfer in rounds is such a run.
-/

namespace ByteFlow.Plan

open ByteFlow.Action Supply

variable {σ τ : Type} [Source σ] [Sink τ] {p : Plan} {a b : Channel σ τ × Progress}

/-- The rounds from `a` on came to one after which there is no other, and it ended at `b`
with this answer. -/
def Finishes (p : Plan) (a : Channel σ τ × Progress) (answer : Except Fault Unit)
    (b : Channel σ τ × Progress) : Prop :=
  ∃ n c, p.Rounds n a c ∧ p.Stuck c ∧
    p.round.Ends c fun last d => (last.map fun _ => ()) = answer ∧ d = b

theorem Finishes.of_stuck (h : p.Stuck a) :
    p.Finishes a ((p.round.run a).answer.map fun _ => ()) (p.round.run a).state :=
  ⟨0, a, .zero a, h, rfl, rfl⟩

theorem Finishes.succ (h : (p.round.run a).answer = .ok none) {answer : Except Fault Unit}
    (hnext : p.Finishes (p.round.run a).state answer b) : p.Finishes a answer b := by
  obtain ⟨n, c, hrounds, hstuck, hends⟩ := hnext
  exact ⟨n + 1, c, .succ h hrounds, hstuck, hends⟩

variable [Meter σ] [Meter τ]

/-- A round that is not the last one took some bytes. -/
theorem Handed.pos_of_next {bs : List UInt8} {k : Nat} (h : p.Handed a bs k)
    (hnext : (p.round.run a).answer = .ok none) (hcapacity : a.1.region.capacity ≠ 0) :
    0 < bs.length ∧ (p.round.run a).state.1 = p.drained a := by
  have hwants : p.wantsMore a.2.moved = true := by
    by_contra hwants
    have hround := (round_of_enough (a := a) (by simpa using hwants)).1
    rw [hround] at hnext
    simp at hnext
  rcases cases_of_wants hwants with ⟨fault, hfails⟩ | ⟨fault, hfails⟩ | hcompletes
  · exact absurd hnext hfails.stuck
  · exact absurd hnext hfails.stuck
  · have hround := round_of_completes hcompletes
    have hmore : ((p.filling a).state.2.hasRemaining || (p.draining a).state.2.hasRemaining) =
        false := by
      refine Bool.eq_false_iff.2 fun hmore => ?_
      rw [hround.1, if_pos hmore] at hnext
      simp at hnext
    obtain ⟨hfilled, -⟩ := Bool.or_eq_false_iff.1 hmore
    rw [Region.hasRemaining_eq_false, h.unfilled_eq] at hfilled
    have hpos := p.within_pos hwants hcapacity
    refine ⟨by omega, ?_⟩
    rw [hround.2]

variable [MeteredSource σ] [MeteredSink τ] [Supply σ] [Depletes σ]

/-- More turns than the source has bytes are enough. -/
theorem ends_rounds_finishes (turns : Nat) (hturns : supply a.1.source < turns)
    (hwritable : a.1.region.readOnly = false) (hcapacity : a.1.region.capacity ≠ 0) :
    (repeatUntil turns p.round (pure ())).Ends a fun answer b => p.Finishes a answer b := by
  induction turns generalizing a with
  | zero => omega
  | succ turns ih =>
    rw [ends_repeatUntil_succ, Ends]
    by_cases hround : (p.round.run a).answer = .ok none
    · obtain ⟨bs, k, hnew⟩ := exists_handed (p := p) hwritable
      obtain ⟨hpos, hstate⟩ := hnew.pos_of_next hround hcapacity
      have hsupply := Depletes.length_add_supply_le hnew.taken
      rw [hround]
      refine (ih ?_ ?_ ?_).mono fun _ _ h => h.succ hround
      · rw [hstate]
        change supply (p.filling a).state.1 < turns
        omega
      · rw [hstate]
        exact hnew.readOnly_eq
      · rw [hstate]
        change (p.draining a).state.2.capacity ≠ 0
        rwa [hnew.capacity_eq]
    · have hfinishes := Finishes.of_stuck hround
      rcases hanswer : (p.round.run a).answer with fault | _ | _
      · rwa [hanswer] at hfinishes
      · exact absurd hanswer hround
      · rwa [hanswer] at hfinishes

/-- A transfer in rounds ends with a last round, or with a fault. -/
theorem ends_runBetween_finishes (p : Plan) (s : σ) (t : τ) {r : Region}
    (hwritable : r.readOnly = false) (hcapacity : r.capacity ≠ 0) :
    p.runBetween.Ends ((s, t), r) fun answer q =>
      ∃ last b, p.Finishes (⟨s, t, r⟩, ⟨0, 0⟩) last b ∧ b.1 = ⟨q.1.1, q.1.2, q.2⟩ ∧
        answer = last.map fun _ =>
          ⟨b.2.moved, b.2.rounds, .buffered r.placement r.capacity⟩ := by
  rw [ends_runBetween, ends_runBuffered]
  refine (ends_rounds_finishes (a := (⟨s, t, r⟩, ⟨0, 0⟩)) _ (Nat.lt_succ_self _) hwritable
    hcapacity).mono ?_
  intro answer b hfinishes
  exact ⟨answer, b, hfinishes, rfl, rfl⟩

end ByteFlow.Plan
