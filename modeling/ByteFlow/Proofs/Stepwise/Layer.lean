import ByteFlow.Proofs.Stepwise.Basic

/-!
# Layers, byte by byte

Each layer over streams that read byte by byte does so itself.  A quota hands a smaller
window on, and shows that nothing is lost by it; a chain goes on with its next member in the
middle of a window, and that is where a byte would be asked from that member as well.

## Main definitions

* `MildPolicy` — policies that do not fail.
* Instances of `StepwiseSource` for the layers.
-/

namespace ByteFlow

open ByteFlow.Action

variable {P L σ : Type}

namespace Quota

/-- A byte that is put into the narrowed window narrows it for the others. -/
theorem receive_narrowed {r : Region} (hr : r.WellFormed) {n : Nat} (b : UInt8)
    (h : min r.remaining n ≠ 0) :
    (r.narrowed n).receive [b] = (r.receive [b]).narrowed (n - 1) := by
  have hreceived : (r.receive [b]).WellFormed := hr.receive (by rw [List.length_singleton]; omega)
  rw [Region.narrowed_eq hreceived, Region.narrowed_eq hr, Region.remaining_receive_one]
  simp only [Region.receive, Region.mk.injEq, List.length_singleton, true_and]
  omega

/-- The quota and the region after a fill of the narrowed window: what was read is told by the
way that the window has gone. -/
def widened (n : Nat) (r : Region) (p : σ × Region) : Quota σ × Region :=
  (⟨p.1, n - (p.2.position - r.position)⟩, p.2.setLimit r.limit)

theorem widened_nothing {r : Region} (hr : r.WellFormed) (n : Nat) (s : σ) :
    widened n r (s, r.narrowed n) = (⟨s, n⟩, r) := by
  have hwindow : ((r.narrowed n).receive []).setLimit r.limit = r.receive [] :=
    Region.setLimit_receive_narrowed hr (Nat.zero_le _)
  rw [Region.receive_nil, Region.receive_nil] at hwindow
  rw [widened, hwindow, Region.position_narrowed hr, Nat.sub_self, Nat.sub_zero]

theorem widened_one {r : Region} (hr : r.WellFormed) {n : Nat} (b : UInt8) (s : σ)
    (h : min r.remaining n ≠ 0) :
    widened n r (s, (r.narrowed n).receive [b]) = (⟨s, n - 1⟩, r.receive [b]) := by
  have hone : [b].length ≤ min r.remaining n := by
    rw [List.length_singleton]
    omega
  rw [widened, Region.setLimit_receive_narrowed hr hone, Region.position_receive,
    Region.position_narrowed hr, Nat.add_sub_cancel_left, List.length_singleton]

/-- What was read after the first byte is the way that the window has gone since. -/
theorem widened_receive {r : Region} {n : Nat} (b : UInt8) {p : σ × Region}
    (h : (r.receive [b]).position ≤ p.2.position) :
    widened n r p = widened (n - 1) (r.receive [b]) p := by
  have hposition : (r.receive [b]).position = r.position + 1 := rfl
  have hused : n - (p.2.position - r.position) =
      n - 1 - (p.2.position - (r.receive [b]).position) := by omega
  rw [widened, widened, hused, Region.limit_receive]

theorem stepwise_clipped {next : Action σ UInt8} {fill : Action (σ × Region) Unit}
    (h : Stepwise (.ok ()) next fill) : Stepwise (.ok ()) (counted next) (clipped fill) := by
  intro q r hr hroom Q
  obtain ⟨s, n⟩ := q
  rw [ends_clipped, ends_counted]
  by_cases hn : n = 0
  · rw [if_pos hn, if_pos hn]
    exact Iff.rfl
  rw [if_neg hn, if_neg hn]
  have hmin : min r.remaining n ≠ 0 := by omega
  have hnarrow : (r.narrowed n).remaining ≠ 0 := by
    rwa [Region.remaining_narrowed hr.toWellFormed]
  change fill.Ends (s, r.narrowed n) (fun answer p => Q answer (widened n r p)) ↔ _
  rw [h s _ (hr.narrowed n) hnarrow]
  refine ends_congr fun answer t => ?_
  cases answer with
  | error fault =>
    dsimp only
    rw [widened_nothing hr.toWellFormed]
  | ok b =>
    have hcount : ((r.narrowed n).receive [b]).remaining = min r.remaining n - 1 := by
      rw [Region.remaining_receive_one, Region.remaining_narrowed hr.toWellFormed]
    dsimp only
    rw [hcount, Region.remaining_receive_one, ends_clipped, widened_one hr.toWellFormed b t hmin]
    dsimp only
    by_cases hfull : min r.remaining n - 1 = 0
    · -- the window is full or the quota is used up, and the outcome is the same
      rw [if_pos hfull]
      by_cases hlast : r.remaining - 1 = 0
      · rw [if_pos hlast]
      · rw [if_neg hlast, if_pos (by omega)]
    · rw [if_neg hfull, if_neg (by omega), if_neg (by omega),
        ← receive_narrowed hr.toWellFormed b hmin]
      have hgoes := h.ends_position_le ((hr.narrowed n).receive_one hnarrow b) (by rwa [hcount]) t
      refine hgoes.congr_of ?_
      intro answer p hp
      have hposition : ((r.narrowed n).receive [b]).position = (r.receive [b]).position := by
        rw [Region.position_receive, Region.position_narrowed hr.toWellFormed]
        rfl
      rw [hposition] at hp
      rw [widened_receive b hp]
      exact Iff.rfl

instance [Source σ] [StepwiseSource σ] : StepwiseSource (Quota σ) where
  ends_close q := StepwiseSource.ends_close q.inner
  fill := stepwise_clipped StepwiseSource.fill
  readBytes := (stepwise_clipped StepwiseSource.fill).fillCompletely

end Quota

instance [Source σ] [StepwiseSource σ] : StepwiseSource (Traced σ) where
  ends_close t := StepwiseSource.ends_close t.inner
  fill t :=
    StepwiseSource.fill.lift (fun s => (⟨s, t.label⟩ : Traced σ)) (fun _ _ => Iff.rfl)
      (fun _ _ _ => Iff.rfl) t.inner
  readBytes t :=
    StepwiseSource.readBytes.lift (fun s => (⟨s, t.label⟩ : Traced σ)) (fun _ _ => Iff.rfl)
      (fun _ _ _ => Iff.rfl) t.inner

instance [Source σ] [StepwiseSource σ] : StepwiseSource (Relay σ) where
  ends_close t := StepwiseSource.ends_close t.inner
  fill t := StepwiseSource.fill.lift Relay.mk (fun _ _ => Iff.rfl) (fun _ _ _ => Iff.rfl) t.inner
  readBytes t := StepwiseSource.readBytes.lift Relay.mk (fun _ _ => Iff.rfl)
    (fun _ _ _ => Iff.rfl) t.inner

/-- Policies that do not fail. -/
class MildPolicy (P σ : Type) [ClosePolicy P σ] : Prop where
  ends_onClose : ∀ (policy : P) (s : σ),
    (ClosePolicy.onClose : Action (P × σ) Bool).Ends (policy, s) fun answer _ =>
      ∃ closed, answer = .ok closed

instance [Source σ] [StepwiseSource σ] : MildPolicy StandardPolicy σ where
  ends_onClose policy s := by
    change StandardPolicy.apply.Ends _ _
    rw [StandardPolicy.ends_apply]
    cases policy with
    | close =>
      refine (StepwiseSource.ends_close s).mono ?_
      rintro _ _ rfl
      exact ⟨true, rfl⟩
    | leaveOpen => exact ⟨false, rfl⟩
    | fence => exact ⟨true, rfl⟩

namespace Closing

theorem stepwise_whenOpenWith {atEnd : Except Fault Unit} {next : Action σ UInt8}
    {bulk : Action (σ × Region) Unit} (h : Stepwise atEnd next bulk) :
    Stepwise atEnd (whenOpen next : Action (Closing P σ) UInt8) (whenOpenWith bulk) := by
  intro c r hr hroom
  rcases c with ⟨inner, policy, applied, closed⟩
  cases closed with
  | true =>
    exact .of_refused .closed nofun (fun Q => Iff.rfl) (fun Q => Iff.rfl)
  | false =>
    exact h.lift (fun s => (⟨s, policy, applied, false⟩ : Closing P σ)) (fun _ _ => Iff.rfl)
      (fun _ _ _ => Iff.rfl) inner r hr hroom

variable [Source σ] [StepwiseSource σ] [ClosePolicy P σ] [MildPolicy P σ]

instance : StepwiseSource (Closing P σ) where
  ends_close c := by
    change shut.Ends c _
    rw [ends_shut]
    by_cases happlied : c.applied = true
    · rw [if_pos happlied]
    · rw [if_neg happlied]
      refine (MildPolicy.ends_onClose c.policy c.inner).mono ?_
      rintro _ p ⟨closed, rfl⟩
      rfl
  fill := stepwise_whenOpenWith StepwiseSource.fill
  readBytes := stepwise_whenOpenWith StepwiseSource.readBytes

end Closing

namespace Chain

variable [ClosePolicy P σ] [MildPolicy P σ]

/-- A source needs no settling, so a member is always left without a fault. -/
theorem ends_leave_mild {c : Chain P σ} {m : σ} {rest : List σ} (hahead : c.ahead = m :: rest) :
    (leave (pure ()) : Action (Chain P σ) Unit).Ends c fun answer d =>
      answer = .ok () ∧ d.ahead = rest := by
  rcases c with ⟨left, ahead, policy, closed⟩
  obtain rfl : ahead = m :: rest := hahead
  rw [ends_leave_cons, ends_pure]
  refine (MildPolicy.ends_onClose policy m).mono ?_
  rintro _ p ⟨closed, rfl⟩
  exact ⟨rfl, rfl⟩

theorem stepwise_spread {next : Action σ UInt8} {fill : Action (σ × Region) Unit}
    (h : Stepwise (.ok ()) next fill) :
    Stepwise (.ok ()) (pull (pure ()) next : Action (Chain P σ) UInt8) (spread (pure ()) fill) := by
  intro c r hr hroom
  generalize hahead : c.ahead = ahead
  induction ahead generalizing c with
  | nil =>
    rcases c with ⟨left, ahead, policy, closed⟩
    obtain rfl : ahead = [] := hahead
    intro Q
    rw [ends_spread_nil, ends_pull_nil]
    rfl
  | cons m rest ih =>
    rcases c with ⟨left, ahead, policy, closed⟩
    obtain rfl : ahead = m :: rest := hahead
    intro Q
    rw [ends_spread_cons, if_neg hroom, ends_pull_cons, h m r hr hroom]
    refine ends_congr fun answer m' => ?_
    cases answer with
    | ok b =>
      simp only [ne_eq, reduceCtorEq, not_false_eq_true, true_imp_iff, false_imp_iff, and_true]
      by_cases hfull : (r.receive [b]).remaining = 0
      · simp only [hfull, if_true]
      · simp only [hfull, if_false]
        rw [ends_spread_cons, if_neg hfull]
    | error fault =>
      by_cases hend : fault = .endOfStream
      · subst hend
        simp only [ne_eq, not_true_eq_false, false_imp_iff, true_imp_iff, true_and, atFault,
          hroom, if_false]
        -- the chain without the member takes the same step, and it is shorter
        refine (ends_leave_mild rfl).congr_of ?_
        rintro _ d ⟨rfl, hrest⟩
        exact ih d hrest Q
      · have hne : (.error fault : Except Fault UInt8) ≠ .error .endOfStream :=
          fun heq => hend (Except.error.inj heq)
        simp only [atFault_of_ne hend, hne, ne_eq, not_false_eq_true, true_imp_iff, false_imp_iff,
          and_true]

theorem ends_leaveEach_mild (c : Chain P σ) (first : Option Fault) :
    (leaveEach (pure ()) c.ahead.length first).Ends c fun answer _ => answer = .ok first := by
  generalize hahead : c.ahead = ahead
  induction ahead generalizing c with
  | nil => exact rfl
  | cons m rest ih =>
    rw [List.length_cons, ends_leaveEach_succ]
    refine (ends_leave_mild hahead).mono ?_
    rintro _ d ⟨rfl, hrest⟩
    exact ih d hrest

variable [Source σ] [StepwiseSource σ]

instance : StepwiseSource (Chain P σ) where
  ends_close c := by
    change (finish (pure ()) Closeable.close).Ends c _
    rw [ends_finish]
    by_cases hclosed : c.closed = true
    · rw [if_pos hclosed]
    · rw [if_neg hclosed]
      refine (ends_leaveEach_mild { c with closed := true } none).mono ?_
      rintro _ d rfl
      dsimp only
      rw [ends_closeLast]
      split
      · rfl
      · exact StepwiseSource.ends_close _
  fill := stepwise_spread StepwiseSource.fill
  readBytes := (stepwise_spread StepwiseSource.fill).fillCompletely

end Chain

/-- A layer takes the steps of its kind. -/
theorem Layer.stepwise_act {atEnd : Except Fault Unit} {endpoint : Action L UInt8}
    {quota : Action (Quota σ) UInt8} {closing : Action (Closing P σ) UInt8}
    {chain : Action (Chain P σ) UInt8} {traced : Action (Traced σ) UInt8}
    {relay : Action (Relay σ) UInt8} {endpoints : Action (L × Region) Unit}
    {quotas : Action (Quota σ × Region) Unit} {closings : Action (Closing P σ × Region) Unit}
    {chains : Action (Chain P σ × Region) Unit} {traceds : Action (Traced σ × Region) Unit}
    {relays : Action (Relay σ × Region) Unit} (hendpoint : Stepwise atEnd endpoint endpoints)
    (hquota : Stepwise atEnd quota quotas) (hclosing : Stepwise atEnd closing closings)
    (hchain : Stepwise atEnd chain chains) (htraced : Stepwise atEnd traced traceds)
    (hrelay : Stepwise atEnd relay relays) :
    Stepwise atEnd (act endpoint quota closing chain traced relay)
      (actWith endpoints quotas closings chains traceds relays) := by
  intro s
  cases s with
  | endpoint s => exact hendpoint.lift Layer.endpoint (fun _ _ => Iff.rfl) (fun _ _ _ => Iff.rfl) s
  | quota s => exact hquota.lift Layer.quota (fun _ _ => Iff.rfl) (fun _ _ _ => Iff.rfl) s
  | closing s => exact hclosing.lift Layer.closing (fun _ _ => Iff.rfl) (fun _ _ _ => Iff.rfl) s
  | chain s => exact hchain.lift Layer.chain (fun _ _ => Iff.rfl) (fun _ _ _ => Iff.rfl) s
  | traced s => exact htraced.lift Layer.traced (fun _ _ => Iff.rfl) (fun _ _ _ => Iff.rfl) s
  | relay s => exact hrelay.lift Layer.relay (fun _ _ => Iff.rfl) (fun _ _ _ => Iff.rfl) s

open StepwiseSource in
instance [Source L] [StepwiseSource L] [Source σ] [StepwiseSource σ] [ClosePolicy P σ]
    [MildPolicy P σ] : StepwiseSource (Layer P L σ) where
  ends_close
    | .endpoint s => ends_close s
    | .quota s => ends_close s
    | .closing s => ends_close s
    | .chain s => ends_close s
    | .traced s => ends_close s
    | .relay s => ends_close s
  fill := Layer.stepwise_act fill fill fill fill fill fill
  readBytes := Layer.stepwise_act readBytes readBytes readBytes readBytes readBytes readBytes

end ByteFlow
