import ByteFlow.Proofs.Layer
import ByteFlow.Proofs.Stepwise.Sink.Basic

/-!
# Layers over sinks, byte by byte

Each layer over sinks that write byte by byte does so itself.  A quota hands a smaller window
on and counts the way that its start has gone.  A chain leaves a member in the middle of a
window, and it flushes it at the same place where it would flush it between two bytes.

## Main definitions

* `UnendingPolicy` — policies whose failure is never taken for the end of the stream.
* Instances of `StepwiseSink` for the layers.
-/

namespace ByteFlow

open ByteFlow.Action

variable {P L σ : Type}

/-! ## Quotas -/

namespace Quota

/-- A byte that leaves the narrowed window narrows it for the others. -/
theorem skip_narrowed {r : Region} (hr : r.WellFormed) {n : Nat} (hroom : r.remaining ≠ 0)
    (hn : n ≠ 0) : (r.narrowed n).skip 1 = (r.skip 1).narrowed (n - 1) := by
  rw [Region.narrowed_eq (hr.skip (by omega)), Region.narrowed_eq hr, Region.remaining_skip]
  simp only [Region.skip, Region.mk.injEq, true_and]
  omega

/-- The quota and the region after a drain of the narrowed window: what was written is told by
the way that the window has gone. -/
def regained (n : Nat) (r : Region) (p : σ × Region) : Quota σ × Region :=
  (⟨p.1, n - (p.2.position - r.position)⟩, p.2.setLimit r.limit)

theorem regained_narrowed {r : Region} (hr : r.WellFormed) (n : Nat) (s : σ) :
    regained n r (s, r.narrowed n) = (⟨s, n⟩, r) := by
  have hwindow := Region.setLimit_skip_narrowed (n := n) hr (Nat.zero_le _)
  rw [regained, Region.position_narrowed hr, Nat.sub_self, Nat.sub_zero]
  rw [Region.skip_zero, Region.skip_zero] at hwindow
  rw [hwindow]

theorem regained_skip {r : Region} (hr : r.WellFormed) {n : Nat} (hroom : r.remaining ≠ 0)
    (hn : n ≠ 0) (s : σ) :
    regained n r (s, (r.narrowed n).skip 1) = (⟨s, n - 1⟩, r.skip 1) := by
  rw [regained, Region.setLimit_skip_narrowed hr (by omega), Region.position_skip,
    Region.position_narrowed hr, Nat.add_sub_cancel_left]

/-- Seen from behind the first byte, the rest of the way is one byte shorter. -/
theorem regained_behind {n : Nat} {r : Region} {p : σ × Region}
    (h : (r.skip 1).position ≤ p.2.position) : regained (n - 1) (r.skip 1) p = regained n r p := by
  have hposition : (r.skip 1).position = r.position + 1 := rfl
  have hway : n - 1 - (p.2.position - (r.skip 1).position) = n - (p.2.position - r.position) := by
    omega
  rw [regained, regained, hway]
  rfl

theorem stepwise_clipped_drain {put : UInt8 → Action σ Unit} {drain : Action (σ × Region) Unit}
    (h : Sink.Stepwise (.ok ()) put drain) :
    Sink.Stepwise (.ok ()) (fun v => counted (put v)) (clipped drain) := by
  intro q r b rest hr Q
  obtain ⟨s, n⟩ := q
  have hroom : r.remaining ≠ 0 := by simp [hr.remaining_eq]
  rw [ends_clipped, ends_counted]
  by_cases hn : n = 0
  · rw [if_pos hn, if_pos hn]
    rfl
  rw [if_neg hn, if_neg hn]
  obtain ⟨k, rfl⟩ : ∃ k, n = k + 1 := Nat.exists_eq_succ_of_ne_zero hn
  change drain.Ends (s, r.narrowed (k + 1)) (fun answer p => Q answer (regained (k + 1) r p)) ↔ _
  rw [h.ends_step s hr.narrowed]
  refine ends_congr fun answer t => ?_
  cases answer with
  | error fault => simp only [regained_narrowed hr.toWellFormed]
  | ok _ =>
    dsimp only
    rw [hr.remaining_skip_one, ends_clipped, regained_skip hr.toWellFormed hroom hn,
      Nat.add_sub_cancel]
    cases rest with
    | nil => simp
    | cons c rest =>
      cases k with
      | zero => simp
      | succ k =>
        -- the sink goes on with the rest of the window, which is narrowed as it was
        have hgoes := h.ends_position_le (hr.next.narrowed (n := k)) t
        rw [Region.position_narrowed hr.next.toWellFormed] at hgoes
        simp only [List.take_succ_cons, List.cons_ne_nil, List.length_cons, if_false,
          Nat.add_eq_zero_iff, Nat.one_ne_zero, and_false]
        rw [skip_narrowed hr.toWellFormed hroom hn, Nat.add_sub_cancel]
        refine hgoes.congr_of fun answer p hp => ?_
        rw [← regained_behind hp, Nat.add_sub_cancel]
        rfl

instance [Sink σ] [StepwiseSink σ] : StepwiseSink (Quota σ) where
  ends_flush q := StepwiseSink.ends_flush q.inner
  ends_close q := StepwiseSink.ends_close q.inner
  drain := stepwise_clipped_drain StepwiseSink.drain
  writeBytes := (stepwise_clipped_drain StepwiseSink.drain).drainCompletely

end Quota

/-! ## Wrappers that hand operations on -/

instance [Sink σ] [StepwiseSink σ] : StepwiseSink (Traced σ) where
  ends_flush t := StepwiseSink.ends_flush t.inner
  ends_close t := StepwiseSink.ends_close t.inner
  drain t _ _ _ hr :=
    StepwiseSink.drain.lift (fun s => (⟨s, t.label⟩ : Traced σ)) (fun _ _ _ => Iff.rfl)
      (fun _ _ _ => Iff.rfl) t.inner hr
  writeBytes t :=
    StepwiseSink.writeBytes.lift (fun s => (⟨s, t.label⟩ : Traced σ)) (fun _ _ _ => Iff.rfl)
      (fun _ _ _ => Iff.rfl) t.inner

instance [Sink σ] [StepwiseSink σ] : StepwiseSink (Relay σ) where
  ends_flush t := StepwiseSink.ends_flush t.inner
  ends_close t := StepwiseSink.ends_close t.inner
  drain t _ _ _ hr :=
    StepwiseSink.drain.lift Relay.mk (fun _ _ _ => Iff.rfl) (fun _ _ _ => Iff.rfl) t.inner hr
  writeBytes t :=
    StepwiseSink.writeBytes.lift Relay.mk (fun _ _ _ => Iff.rfl) (fun _ _ _ => Iff.rfl) t.inner

/-- Policies whose failure is never taken for the end of the stream. -/
class UnendingPolicy (P σ : Type) [ClosePolicy P σ] : Prop where
  ends_onClose : ∀ (policy : P) (s : σ),
    (ClosePolicy.onClose : Action (P × σ) Bool).Ends (policy, s) fun answer _ =>
      answer ≠ .error .endOfStream

instance [Sink σ] [StepwiseSink σ] : UnendingPolicy StandardPolicy σ where
  ends_onClose policy s := by
    change StandardPolicy.apply.Ends _ _
    rw [StandardPolicy.ends_apply]
    cases policy with
    | close =>
      refine (StepwiseSink.ends_close s).mono fun answer _ h => ?_
      cases answer <;> simp_all
    | leaveOpen => simp
    | fence => simp

namespace Closing

theorem stepwise_whenOpenWith_drain {atEnd : Except Fault Unit} {put : UInt8 → Action σ Unit}
    {bulk : Action (σ × Region) Unit} (h : Sink.Stepwise atEnd put bulk) :
    Sink.Stepwise atEnd (fun v => (whenOpen (put v) : Action (Closing P σ) Unit))
      (whenOpenWith bulk) := by
  intro c r b rest hr
  rcases c with ⟨inner, policy, applied, closed⟩
  cases closed with
  | true => exact .of_refused .closed (by simp) (fun Q => Iff.rfl) (fun Q => Iff.rfl)
  | false =>
    exact h.lift (fun s => (⟨s, policy, applied, false⟩ : Closing P σ)) (fun _ _ _ => Iff.rfl)
      (fun _ _ _ => Iff.rfl) inner hr

theorem piecewise_whenOpen {put : UInt8 → Action σ Unit} {write : Bytes → Action σ Unit}
    (h : Sink.Piecewise put write) :
    Sink.Piecewise (fun v => (whenOpen (put v) : Action (Closing P σ) Unit))
      fun bytes => whenOpen (write bytes) := by
  intro c
  rcases c with ⟨inner, policy, applied, closed⟩
  cases closed with
  | true => exact .of_refused .closed (fun _ _ => Iff.rfl) (fun _ _ => Iff.rfl)
  | false =>
    exact h.lift (fun s => (⟨s, policy, applied, false⟩ : Closing P σ)) (fun _ _ _ => Iff.rfl)
      (fun _ _ _ => Iff.rfl) inner

variable [Sink σ] [StepwiseSink σ] [ClosePolicy P σ] [UnendingPolicy P σ]

instance : StepwiseSink (Closing P σ) where
  ends_flush c := by
    rcases c with ⟨inner, policy, applied, closed⟩
    cases closed with
    | true => simp [Ends, Sink.flush, whenOpen]
    | false => exact StepwiseSink.ends_flush inner
  ends_close c := by
    change shut.Ends c _
    rw [ends_shut]
    by_cases happlied : c.applied = true
    · simp [happlied]
    · rw [if_neg happlied]
      refine (UnendingPolicy.ends_onClose c.policy c.inner).mono fun answer p h => ?_
      cases answer <;> simp_all
  drain := stepwise_whenOpenWith_drain StepwiseSink.drain
  writeBytes := piecewise_whenOpen StepwiseSink.writeBytes

end Closing

/-! ## Chains -/

namespace Chain

variable [ClosePolicy P σ] [UnendingPolicy P σ] {settle : Action σ Unit}

/-- To leave a member may fail, but not as if the stream had ended. -/
theorem ends_leave_ne (hsettle : ∀ s, settle.Ends s fun answer _ => answer ≠ .error .endOfStream)
    {c : Chain P σ} {m : σ} {rest : List σ} (hahead : c.ahead = m :: rest) :
    (leave settle).Ends c fun answer d => answer ≠ .error .endOfStream ∧ d.ahead = rest := by
  rcases c with ⟨left, ahead, policy, closed⟩
  obtain rfl : ahead = m :: rest := hahead
  rw [ends_leave_cons]
  refine (hsettle m).mono fun settled m' hsettled => ?_
  refine (UnendingPolicy.ends_onClose policy m').mono fun judged p hjudged => ⟨?_, rfl⟩
  cases settled with
  | error fault => simpa [Except.bind] using hsettled
  | ok _ =>
    cases judged with
    | error fault => simpa [Except.bind] using hjudged
    | ok _ => simp [Except.bind]

theorem stepwise_spread_drain
    (hsettle : ∀ s, settle.Ends s fun answer _ => answer ≠ .error .endOfStream)
    {put : UInt8 → Action σ Unit} {drain : Action (σ × Region) Unit}
    (h : Sink.Stepwise (.ok ()) put drain) :
    Sink.Stepwise (.ok ()) (fun v => (pull settle (put v) : Action (Chain P σ) Unit))
      (spread settle drain) := by
  intro c r b bytes hr
  have hroom : r.remaining ≠ 0 := by simp [hr.remaining_eq]
  generalize hahead : c.ahead = ahead
  induction ahead generalizing c with
  | nil =>
    rcases c with ⟨left, ahead, policy, closed⟩
    obtain rfl : ahead = [] := hahead
    intro Q
    rw [ends_spread_nil, ends_pull_nil]
    rfl
  | cons m rest ih =>
    rcases c with ⟨left, ahead, policy, closed⟩
    obtain rfl : ahead = m :: rest := hahead
    intro Q
    rw [ends_spread_cons, if_neg hroom, ends_pull_cons, h m hr]
    refine ends_congr fun answer m' => ?_
    cases answer with
    | ok _ =>
      simp only [ne_eq, reduceCtorEq, not_false_eq_true, true_imp_iff, false_imp_iff, and_true]
      by_cases hfull : (r.skip 1).remaining = 0
      · simp only [hfull, if_true]
      · simp only [hfull, if_false]
        rw [ends_spread_cons, if_neg hfull]
    | error fault =>
      by_cases hend : fault = .endOfStream
      · subst hend
        have hanswer : atFault (.ok ()) .endOfStream = .ok () := rfl
        simp only [ne_eq, not_true_eq_false, false_imp_iff, true_imp_iff, true_and, hanswer,
          hroom, if_false]
        refine (ends_leave_ne hsettle rfl).congr_of ?_
        rintro moved d ⟨hmoved, hrest⟩
        cases moved with
        -- the chain without the member takes the same step, and it is shorter
        | ok _ => exact ih d hrest Q
        | error fault =>
          have hfault : fault ≠ .endOfStream := fun heq => hmoved (congrArg _ heq)
          simp only [atFault_of_ne hfault]
      · have hne : (.error fault : Except Fault Unit) ≠ .error .endOfStream :=
          fun heq => hend (Except.error.inj heq)
        simp only [atFault_of_ne hend, hne, ne_eq, not_false_eq_true, true_imp_iff, false_imp_iff,
          and_true]

theorem ends_leaveEach_ne
    (hsettle : ∀ s, settle.Ends s fun answer _ => answer ≠ .error .endOfStream) (c : Chain P σ)
    (first : Option Fault) (hfirst : first ≠ some .endOfStream) :
    (leaveEach settle c.ahead.length first).Ends c fun answer _ =>
      ∃ earliest, answer = .ok earliest ∧ earliest ≠ some .endOfStream := by
  generalize hahead : c.ahead = ahead
  induction ahead generalizing c first with
  | nil => exact ⟨first, rfl, hfirst⟩
  | cons m rest ih =>
    rw [List.length_cons, ends_leaveEach_succ]
    refine (ends_leave_ne hsettle hahead).mono ?_
    rintro answer d ⟨hne, hrest⟩
    cases answer with
    | ok _ => exact ih d first hfirst hrest
    | error fault =>
      refine ih d _ ?_ hrest
      cases first with
      | none => simpa using hne
      | some earlier => simpa using hfirst

variable [Sink σ] [StepwiseSink σ]

omit [ClosePolicy P σ] [UnendingPolicy P σ] in
theorem ends_closeLast_ne (c : Chain P σ) :
    (closeLast Closeable.close).Ends c fun answer _ => answer ≠ .error .endOfStream := by
  rw [ends_closeLast]
  split
  · simp
  · exact StepwiseSink.ends_close _

instance : StepwiseSink (Chain P σ) where
  ends_flush c := by
    rcases c with ⟨left, ahead, policy, closed⟩
    cases ahead with
    | nil => exact nofun
    | cons m rest => exact StepwiseSink.ends_flush m
  ends_close c := by
    change (finish Sink.flush Closeable.close).Ends c _
    rw [ends_finish]
    by_cases hclosed : c.closed = true
    · simp [hclosed]
    rw [if_neg hclosed]
    refine (ends_leaveEach_ne StepwiseSink.ends_flush { c with closed := true } none
      (by simp)).mono ?_
    rintro _ d ⟨earliest, rfl, hearliest⟩
    have hlast := ends_closeLast_ne d
    cases earliest with
    | none => exact hlast
    | some fault => exact hlast.mono fun _ _ _ => by simpa using hearliest
  drain := stepwise_spread_drain StepwiseSink.ends_flush StepwiseSink.drain
  writeBytes :=
    (stepwise_spread_drain StepwiseSink.ends_flush StepwiseSink.drain).drainCompletely

end Chain

/-! ## Layers -/

namespace Layer

/-- A layer takes the steps of its kind. -/
theorem stepwise_act_drain {atEnd : Except Fault Unit} {endpoint : UInt8 → Action L Unit}
    {quota : UInt8 → Action (Quota σ) Unit} {closing : UInt8 → Action (Closing P σ) Unit}
    {chain : UInt8 → Action (Chain P σ) Unit} {traced : UInt8 → Action (Traced σ) Unit}
    {relay : UInt8 → Action (Relay σ) Unit} {endpoints : Action (L × Region) Unit}
    {quotas : Action (Quota σ × Region) Unit} {closings : Action (Closing P σ × Region) Unit}
    {chains : Action (Chain P σ × Region) Unit} {traceds : Action (Traced σ × Region) Unit}
    {relays : Action (Relay σ × Region) Unit}
    (hendpoint : Sink.Stepwise atEnd endpoint endpoints)
    (hquota : Sink.Stepwise atEnd quota quotas) (hclosing : Sink.Stepwise atEnd closing closings)
    (hchain : Sink.Stepwise atEnd chain chains) (htraced : Sink.Stepwise atEnd traced traceds)
    (hrelay : Sink.Stepwise atEnd relay relays) :
    Sink.Stepwise atEnd
      (fun v => act (endpoint v) (quota v) (closing v) (chain v) (traced v) (relay v))
      (actWith endpoints quotas closings chains traceds relays) := by
  intro s r b rest hr
  cases s with
  | endpoint s =>
    exact hendpoint.lift Layer.endpoint (fun _ _ _ => Iff.rfl) (fun _ _ _ => Iff.rfl) s hr
  | quota s => exact hquota.lift Layer.quota (fun _ _ _ => Iff.rfl) (fun _ _ _ => Iff.rfl) s hr
  | closing s =>
    exact hclosing.lift Layer.closing (fun _ _ _ => Iff.rfl) (fun _ _ _ => Iff.rfl) s hr
  | chain s => exact hchain.lift Layer.chain (fun _ _ _ => Iff.rfl) (fun _ _ _ => Iff.rfl) s hr
  | traced s => exact htraced.lift Layer.traced (fun _ _ _ => Iff.rfl) (fun _ _ _ => Iff.rfl) s hr
  | relay s => exact hrelay.lift Layer.relay (fun _ _ _ => Iff.rfl) (fun _ _ _ => Iff.rfl) s hr

/-- A layer writes in pieces if its kind does. -/
theorem piecewise_act {endpoint : UInt8 → Action L Unit}
    {quota : UInt8 → Action (Quota σ) Unit} {closing : UInt8 → Action (Closing P σ) Unit}
    {chain : UInt8 → Action (Chain P σ) Unit} {traced : UInt8 → Action (Traced σ) Unit}
    {relay : UInt8 → Action (Relay σ) Unit} {endpoints : Bytes → Action L Unit}
    {quotas : Bytes → Action (Quota σ) Unit} {closings : Bytes → Action (Closing P σ) Unit}
    {chains : Bytes → Action (Chain P σ) Unit} {traceds : Bytes → Action (Traced σ) Unit}
    {relays : Bytes → Action (Relay σ) Unit} (hendpoint : Sink.Piecewise endpoint endpoints)
    (hquota : Sink.Piecewise quota quotas) (hclosing : Sink.Piecewise closing closings)
    (hchain : Sink.Piecewise chain chains) (htraced : Sink.Piecewise traced traceds)
    (hrelay : Sink.Piecewise relay relays) :
    Sink.Piecewise
      (fun v => act (endpoint v) (quota v) (closing v) (chain v) (traced v) (relay v))
      fun bytes => act (endpoints bytes) (quotas bytes) (closings bytes) (chains bytes)
        (traceds bytes) (relays bytes) := by
  intro s
  cases s with
  | endpoint s =>
    exact hendpoint.lift Layer.endpoint (fun _ _ _ => Iff.rfl) (fun _ _ _ => Iff.rfl) s
  | quota s => exact hquota.lift Layer.quota (fun _ _ _ => Iff.rfl) (fun _ _ _ => Iff.rfl) s
  | closing s =>
    exact hclosing.lift Layer.closing (fun _ _ _ => Iff.rfl) (fun _ _ _ => Iff.rfl) s
  | chain s => exact hchain.lift Layer.chain (fun _ _ _ => Iff.rfl) (fun _ _ _ => Iff.rfl) s
  | traced s => exact htraced.lift Layer.traced (fun _ _ _ => Iff.rfl) (fun _ _ _ => Iff.rfl) s
  | relay s => exact hrelay.lift Layer.relay (fun _ _ _ => Iff.rfl) (fun _ _ _ => Iff.rfl) s

open StepwiseSink in
instance [Sink L] [StepwiseSink L] [Sink σ] [StepwiseSink σ] [ClosePolicy P σ]
    [UnendingPolicy P σ] : StepwiseSink (Layer P L σ) where
  ends_flush s := by
    cases s with
    | endpoint s => exact StepwiseSink.ends_flush s
    | quota s => exact StepwiseSink.ends_flush s
    | closing s => exact StepwiseSink.ends_flush s
    | chain s => exact StepwiseSink.ends_flush s
    | traced s => exact StepwiseSink.ends_flush s
    | relay s => exact StepwiseSink.ends_flush s
  ends_close s := by
    cases s with
    | endpoint s => exact StepwiseSink.ends_close s
    | quota s => exact StepwiseSink.ends_close s
    | closing s => exact StepwiseSink.ends_close s
    | chain s => exact StepwiseSink.ends_close s
    | traced s => exact StepwiseSink.ends_close s
    | relay s => exact StepwiseSink.ends_close s
  drain := stepwise_act_drain drain drain drain drain drain drain
  writeBytes :=
    piecewise_act writeBytes writeBytes writeBytes writeBytes writeBytes writeBytes

end Layer

end ByteFlow
