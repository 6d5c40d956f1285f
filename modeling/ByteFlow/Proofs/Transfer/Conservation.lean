import ByteFlow.Proofs.Meter.Recorded
import ByteFlow.Proofs.Transfer.Round
import ByteFlow.Scripted.Device

/-!
# No byte is lost or doubled

A transfer in rounds has to account for the bytes it took from the source, whatever fails
on either side.  Bytes that the target did not take are in the region when the transfer
ends: those of a failed fill before the window, those of a failed drain in the window.

Rounds that are not the last one hand on everything they took.  This is the invariant of
the loop, and the last round is the only place where bytes can be left over.

## Main definitions

* `Plan.Rounds p n a b` — `n` rounds were complete and not the last one.
* `Plan.FailsFilling`, `Plan.FailsDraining`, `Plan.Refuses` — how a round can come to leave
  bytes behind.
* `Plan.Accounted` — what a transfer has to say about every byte.
* `Plan.Underway` — the invariant between two rounds.
-/

namespace ByteFlow.Plan

open ByteFlow.Action

variable {σ τ : Type} [Source σ] [Sink τ]

/-! ## Rounds of a run -/

/-- So many rounds were complete, and none of them was the last one. -/
inductive Rounds (p : Plan) : Nat → Channel σ τ × Progress → Channel σ τ × Progress → Prop
  | zero (a) : Rounds p 0 a a
  | succ {n a b} :
    (p.round.run a).answer = .ok none → Rounds p n (p.round.run a).state b → Rounds p (n + 1) a b

/-- There is no round after the one that begins here. -/
def Stuck (p : Plan) (a : Channel σ τ × Progress) : Prop := (p.round.run a).answer ≠ .ok none

variable {p : Plan} {m n : Nat} {a b c : Channel σ τ × Progress}

theorem Rounds.snoc (h : p.Rounds n a b) (hb : (p.round.run b).answer = .ok none) :
    p.Rounds (n + 1) a (p.round.run b).state := by
  induction h with
  | zero a => exact .succ hb (.zero _)
  | succ ha _ ih => exact .succ ha (ih hb)

theorem Rounds.le_of_stuck (h : p.Rounds n a b) (h' : p.Rounds m a c) (hc : p.Stuck c) :
    n ≤ m := by
  induction h generalizing m with
  | zero a => exact Nat.zero_le m
  | succ ha _ ih =>
    cases h' with
    | zero => exact absurd ha hc
    | succ _ h' => exact Nat.succ_le_succ (ih h')

theorem Rounds.eq (h : p.Rounds n a b) (h' : p.Rounds n a c) : b = c := by
  induction h with
  | zero a =>
    cases h'
    rfl
  | succ _ _ ih =>
    cases h' with
    | succ _ h' => exact ih h'

/-- A run comes to one place only where there is no next round. -/
theorem Rounds.eq_of_stuck (h : p.Rounds n a b) (h' : p.Rounds m a c) (hb : p.Stuck b)
    (hc : p.Stuck c) : b = c := by
  have hnm : n = m := Nat.le_antisymm (h.le_of_stuck h' hc) (h'.le_of_stuck h hb)
  subst hnm
  exact h.eq h'

/-! ## How a round ends -/

/-- The fill of the round that begins here. -/
def filling (p : Plan) (a : Channel σ τ × Progress) : Outcome (σ × Region) Unit :=
  (Source.fill : Action (σ × Region) Unit).run (a.1.source, p.openWindow a.2.moved a.1.region)

/-- The drain of the round that begins here, after its fill. -/
def draining (p : Plan) (a : Channel σ τ × Progress) : Outcome (τ × Region) Unit :=
  (Sink.drain : Action (τ × Region) Unit).run (a.1.target, (p.filling a).state.2.flip)

/-- The round that begins here fails in its fill. -/
def FailsFilling (p : Plan) (fault : Fault) (a : Channel σ τ × Progress) : Prop :=
  p.wantsMore a.2.moved = true ∧ (p.filling a).answer = .error fault

/-- The round that begins here fails in its drain. -/
def FailsDraining (p : Plan) (fault : Fault) (a : Channel σ τ × Progress) : Prop :=
  p.wantsMore a.2.moved = true ∧ (p.filling a).answer = .ok () ∧
    (p.draining a).answer = .error fault

/-- The round that begins here is complete. -/
def Completes (p : Plan) (a : Channel σ τ × Progress) : Prop :=
  p.wantsMore a.2.moved = true ∧ (p.filling a).answer = .ok () ∧ (p.draining a).answer = .ok ()

/-- The target does not take all bytes of the round that begins here. -/
def Refuses (p : Plan) (a : Channel σ τ × Progress) : Prop :=
  p.Completes a ∧ (p.draining a).state.2.hasRemaining = true

/-- Where a round leaves the channel that got as far as its drain. -/
def drained (p : Plan) (a : Channel σ τ × Progress) : Channel σ τ where
  source := (p.filling a).state.1
  target := (p.draining a).state.1
  region := (p.draining a).state.2

theorem round_of_enough (h : p.wantsMore a.2.moved = false) :
    p.round.Ends a fun answer b =>
      answer = .ok (some ()) ∧ b = ({ a.1 with region := a.1.region.clear }, a.2) := by
  rcases a with ⟨⟨s, t, r⟩, ⟨moved, rounds⟩⟩
  rw [ends_round, if_neg (by simpa using h)]
  exact ⟨rfl, rfl⟩

theorem round_of_failsFilling {fault : Fault} (h : p.FailsFilling fault a) :
    p.round.Ends a fun answer b =>
      answer = .error fault ∧
        b = (⟨(p.filling a).state.1, a.1.target, (p.filling a).state.2⟩, a.2) := by
  rcases a with ⟨⟨s, t, r⟩, ⟨moved, rounds⟩⟩
  obtain ⟨hwants, hfilling⟩ := h
  rw [filling] at hfilling
  rw [ends_round, if_pos hwants, Ends, hfilling]
  exact ⟨rfl, rfl⟩

theorem round_of_failsDraining {fault : Fault} (h : p.FailsDraining fault a) :
    p.round.Ends a fun answer b => answer = .error fault ∧ b = (p.drained a, a.2) := by
  rcases a with ⟨⟨s, t, r⟩, ⟨moved, rounds⟩⟩
  obtain ⟨hwants, hfilling, hdraining⟩ := h
  rw [filling] at hfilling
  rw [draining, filling] at hdraining
  rw [ends_round, if_pos hwants, Ends, hfilling]
  dsimp only
  rw [Ends, hdraining]
  exact ⟨rfl, rfl⟩

theorem round_of_completes (h : p.Completes a) :
    p.round.Ends a fun answer b =>
      answer = .ok (if (p.filling a).state.2.hasRemaining || (p.draining a).state.2.hasRemaining
        then some () else none) ∧
      b = (p.drained a,
        ⟨a.2.moved + ((p.filling a).state.2.position - (p.draining a).state.2.remaining),
          a.2.rounds + 1⟩) := by
  rcases a with ⟨⟨s, t, r⟩, ⟨moved, rounds⟩⟩
  obtain ⟨hwants, hfilling, hdraining⟩ := h
  rw [filling] at hfilling
  rw [draining, filling] at hdraining
  rw [ends_round, if_pos hwants, Ends, hfilling]
  dsimp only
  rw [Ends, hdraining]
  exact ⟨rfl, rfl⟩

theorem FailsFilling.stuck {fault : Fault} (h : p.FailsFilling fault a) : p.Stuck a := by
  rw [Stuck, (round_of_failsFilling h).1]
  exact nofun

theorem FailsDraining.stuck {fault : Fault} (h : p.FailsDraining fault a) : p.Stuck a := by
  rw [Stuck, (round_of_failsDraining h).1]
  exact nofun

theorem Refuses.stuck (h : p.Refuses a) : p.Stuck a := by
  rw [Stuck, (round_of_completes h.1).1, h.2, Bool.or_true, if_pos rfl]
  exact nofun

/-- A round that begins does one of these. -/
theorem cases_of_wants (h : p.wantsMore a.2.moved = true) :
    (∃ fault, p.FailsFilling fault a) ∨ (∃ fault, p.FailsDraining fault a) ∨ p.Completes a := by
  rcases hfilling : (p.filling a).answer with fault | _
  · exact .inl ⟨fault, h, hfilling⟩
  · rcases hdraining : (p.draining a).answer with fault | _
    · exact .inr (.inl ⟨fault, h, hfilling, hdraining⟩)
    · exact .inr (.inr ⟨h, hfilling, hdraining⟩)

/-- Some round of the run fails in its fill. -/
def FillFails (p : Plan) (start : Channel σ τ) : Prop :=
  ∃ n a fault, p.Rounds n (start, ⟨0, 0⟩) a ∧ p.FailsFilling fault a

/-- Some round of the run fails in its drain. -/
def DrainFails (p : Plan) (start : Channel σ τ) : Prop :=
  ∃ n a fault, p.Rounds n (start, ⟨0, 0⟩) a ∧ p.FailsDraining fault a

/-- A run does not fail in both ways. -/
theorem FillFails.not_drainFails {start : Channel σ τ} (h : p.FillFails start) :
    ¬p.DrainFails start := by
  intro h'
  obtain ⟨n, a, fault, ha, hfill⟩ := h
  obtain ⟨m, b, other, hb, hdrain⟩ := h'
  -- both are where the run stops, so this round would have failed twice
  obtain rfl := ha.eq_of_stuck hb hfill.stuck hdrain.stuck
  have hok := hdrain.2.1
  rw [hfill.2] at hok
  exact nomatch hok

/-- The target does not take all bytes of the last of so many rounds. -/
def RefusesLast (p : Plan) (start : Channel σ τ) (rounds : Nat) : Prop :=
  ∃ n a, n + 1 = rounds ∧ p.Rounds n (start, ⟨0, 0⟩) a ∧ p.Refuses a

/-! ## The bytes of a round -/

variable [Meter σ] [Meter τ]

/-- In the round that begins here the bytes `bs` were taken, and `k` of them were handed
on. -/
structure Handed (p : Plan) (a : Channel σ τ × Progress) (bs : List UInt8) (k : Nat) : Prop where
  length_le : bs.length ≤ p.within a.2.moved a.1.region.capacity
  taken : Moved a.1.source bs (p.filling a).state.1
  filled_eq : (p.filling a).state.2.filled.list = bs
  position_eq : (p.filling a).state.2.position = bs.length
  unfilled_eq :
    (p.filling a).state.2.remaining = p.within a.2.moved a.1.region.capacity - bs.length
  le_length : k ≤ bs.length
  given : Moved a.1.target (bs.take k) (p.draining a).state.1
  window_eq : (p.draining a).state.2.window.list = bs.drop k
  remaining_eq : (p.draining a).state.2.remaining = bs.length - k
  readOnly_eq : (p.draining a).state.2.readOnly = false
  capacity_eq : (p.draining a).state.2.capacity = a.1.region.capacity

theorem exists_handed [MeteredSource σ] [MeteredSink τ] (hr : a.1.region.readOnly = false) :
    ∃ bs k, p.Handed a bs k := by
  have hwindow : (p.openWindow a.2.moved a.1.region).Writable := p.writable_openWindow hr
  obtain ⟨bs, hbs, htaken, hfilled⟩ := MeteredSource.fill a.1.source _ hwindow
  change (p.filling a).state.2 = p.loaded a.2.moved a.1.region bs at hfilled
  rw [remaining_openWindow] at hbs
  have hflipped : (p.filling a).state.2.flip.WellFormed := by
    rw [hfilled]
    exact p.wellFormed_flip_loaded hr hbs
  obtain ⟨k, hk, hgiven, hdrained⟩ := MeteredSink.drain a.1.target _ hflipped
  change (p.draining a).state.2 = _ at hdrained
  change Moved a.1.target _ (p.draining a).state.1 at hgiven
  rw [hfilled] at hdrained
  rw [hfilled, Region.remaining_flip, position_loaded] at hk
  rw [hfilled, Region.window_flip, p.list_filled_loaded hr] at hgiven
  refine ⟨bs, k, hbs, htaken, ?_, ?_, ?_, hk, hgiven, ?_, ?_, ?_, ?_⟩
  · rw [hfilled, p.list_filled_loaded hr]
  · rw [hfilled, position_loaded]
  · rw [hfilled, remaining_loaded]
  · rw [hdrained, p.list_window_handed hr]
  · rw [hdrained, remaining_handed]
  · rw [hdrained, readOnly_handed, hr]
  · rw [hdrained, p.capacity_handed hr hbs]

/-! ## Every byte is accounted for -/

/-- The bytes `taken` came out of the source and the bytes `given` went into the target,
and the region of the channel shows the difference. -/
structure Accounted (p : Plan) (start : Channel σ τ) (answer : Except Fault Summary)
    (final : Channel σ τ) (taken given : List UInt8) : Prop where
  source : Moved start.source taken final.source
  target : Moved start.target given final.target
  /-- No more was taken than was asked for. -/
  limit : ∀ {limit}, p.limit = some limit → taken.length ≤ limit
  bytes : ∀ {summary}, answer = .ok summary → summary.bytes = given.length
  /-- Without a refusal everything was handed on. -/
  accepted : ∀ {summary}, answer = .ok summary → ¬p.RefusesLast start summary.rounds →
    taken = given
  refused : ∀ {summary}, answer = .ok summary → p.RefusesLast start summary.rounds →
    taken = given ++ final.region.window.list
  /-- There are two places to fail. -/
  failed : ∀ {fault}, answer = .error fault → p.FillFails start ∨ p.DrainFails start
  filling : ∀ {fault}, answer = .error fault → p.FillFails start →
    taken = given ++ final.region.filled.list
  draining : ∀ {fault}, answer = .error fault → p.DrainFails start →
    taken = given ++ final.region.window.list

/-- A source that remembers leaves no choice about the bytes, on either side. -/
theorem Accounted.unique [Faithful σ] {start final : Channel σ τ} {answer : Except Fault Summary}
    {taken given taken' given' : List UInt8} (h : p.Accounted start answer final taken given)
    (h' : p.Accounted start answer final taken' given') : taken = taken' ∧ given = given' := by
  obtain rfl := Faithful.unique h.source h'.source
  refine ⟨rfl, ?_⟩
  cases answer with
  | ok summary =>
    by_cases hrefused : p.RefusesLast start summary.rounds
    · exact List.append_cancel_right ((h.refused rfl hrefused).symm.trans (h'.refused rfl hrefused))
    · exact (h.accepted rfl hrefused).symm.trans (h'.accepted rfl hrefused)
  | error fault =>
    rcases h.failed rfl with hfill | hdrain
    · exact List.append_cancel_right ((h.filling rfl hfill).symm.trans (h'.filling rfl hfill))
    · exact List.append_cancel_right ((h.draining rfl hdrain).symm.trans (h'.draining rfl hdrain))

/-- Between two rounds the bytes `bs` were taken, and all of them were handed on. -/
structure Underway (p : Plan) (start : Channel σ τ) (n : Nat) (bs : List UInt8)
    (a : Channel σ τ × Progress) : Prop where
  rounds : p.Rounds n (start, ⟨0, 0⟩) a
  source : Moved start.source bs a.1.source
  target : Moved start.target bs a.1.target
  limit : ∀ {limit}, p.limit = some limit → bs.length ≤ limit
  moved_eq : a.2.moved = bs.length
  rounds_eq : a.2.rounds = n
  readOnly_eq : a.1.region.readOnly = false

namespace Underway

variable {start : Channel σ τ} {bs : List UInt8}

theorem initial (h : start.region.readOnly = false) : p.Underway start 0 [] (start, ⟨0, 0⟩) where
  rounds := .zero _
  source := Meter.refl start.source
  target := Meter.refl start.target
  limit _ := Nat.zero_le _
  moved_eq := rfl
  rounds_eq := rfl
  readOnly_eq := h

/-- A transfer that ends between two rounds leaves nothing over. -/
theorem accounted (h : p.Underway start n bs a) (strategy : Strategy) {final : Channel σ τ}
    (hsource : final.source = a.1.source) (htarget : final.target = a.1.target) :
    p.Accounted start (.ok ⟨a.2.moved, a.2.rounds, strategy⟩) final bs bs where
  source := hsource ▸ h.source
  target := htarget ▸ h.target
  limit := h.limit
  bytes := by
    intro summary heq
    cases heq
    exact h.moved_eq
  accepted _ _ := rfl
  refused := by
    intro summary heq hlast
    cases heq
    obtain ⟨m, b, hm, hb, hrefuses⟩ := hlast
    -- the round that was refused would be one after which there is no other
    have hle := h.rounds.le_of_stuck hb hrefuses.stuck
    have hrounds := h.rounds_eq
    dsimp only at hm
    omega
  failed := nofun
  filling := nofun
  draining := nofun

/-! ### One more round -/

variable {new : List UInt8} {k : Nat} {fault : Fault}

omit [Source σ] [Sink τ] [Meter σ] [Meter τ] in
theorem append_take_drop (bs new : List UInt8) (k : Nat) :
    bs ++ new = bs ++ new.take k ++ new.drop k := by
  rw [List.append_assoc, List.take_append_drop]

/-- A round does not take more than is asked for. -/
theorem length_append_le (h : p.Underway start n bs a) (hnew : p.Handed a new k) {limit : Nat}
    (hlimit : p.limit = some limit) : (bs ++ new).length ≤ limit := by
  have hbs := h.limit hlimit
  have hmoved := h.moved_eq
  have hwithin : p.within a.2.moved a.1.region.capacity ≤ limit - a.2.moved :=
    p.within_le_limit hlimit
  have hlength := hnew.length_le
  rw [List.length_append]
  omega

/-- Bytes that came before the fill failed are in front of the window. -/
theorem accounted_of_failsFilling (h : p.Underway start n bs a) (hnew : p.Handed a new k)
    (hfails : p.FailsFilling fault a) :
    p.Accounted start (.error fault)
      ⟨(p.filling a).state.1, a.1.target, (p.filling a).state.2⟩ (bs ++ new) bs where
  source := Meter.trans h.source hnew.taken
  target := h.target
  limit := h.length_append_le hnew
  bytes := nofun
  accepted := nofun
  refused := nofun
  failed _ := .inl ⟨n, a, fault, h.rounds, hfails⟩
  filling _ _ := by rw [hnew.filled_eq]
  draining := by
    intro _ _ hdrain
    have hfill : p.FillFails start := ⟨n, a, fault, h.rounds, hfails⟩
    exact absurd hdrain hfill.not_drainFails

/-- Bytes that the drain left when it failed are in the window. -/
theorem accounted_of_failsDraining (h : p.Underway start n bs a) (hnew : p.Handed a new k)
    (hfails : p.FailsDraining fault a) :
    p.Accounted start (.error fault) (p.drained a) (bs ++ new) (bs ++ new.take k) where
  source := Meter.trans h.source hnew.taken
  target := Meter.trans h.target hnew.given
  limit := h.length_append_le hnew
  bytes := nofun
  accepted := nofun
  refused := nofun
  failed _ := .inr ⟨n, a, fault, h.rounds, hfails⟩
  filling := by
    intro _ _ hfill
    have hdrain : p.DrainFails start := ⟨n, a, fault, h.rounds, hfails⟩
    exact absurd hdrain hfill.not_drainFails
  draining _ _ := by
    rw [drained, hnew.window_eq]
    exact append_take_drop bs new k

/-- A complete round leaves over what the target refused, and nothing else. -/
theorem accounted_of_completes (h : p.Underway start n bs a) (hnew : p.Handed a new k)
    (hcompletes : p.Completes a) (strategy : Strategy) :
    p.Accounted start
      (.ok ⟨a.2.moved + ((p.filling a).state.2.position - (p.draining a).state.2.remaining),
        a.2.rounds + 1, strategy⟩)
      (p.drained a) (bs ++ new) (bs ++ new.take k) where
  source := Meter.trans h.source hnew.taken
  target := Meter.trans h.target hnew.given
  limit := h.length_append_le hnew
  bytes := by
    intro summary heq
    cases heq
    have hk := hnew.le_length
    dsimp only
    rw [h.moved_eq, hnew.position_eq, hnew.remaining_eq, List.length_append,
      List.length_take_of_le hk]
    omega
  accepted := by
    intro summary heq hnone
    cases heq
    have hempty : (p.draining a).state.2.remaining = 0 := by
      by_cases hleft : (p.draining a).state.2.remaining = 0
      · exact hleft
      refine absurd ⟨n, a, ?_, h.rounds, hcompletes, ?_⟩ hnone
      · dsimp only
        rw [h.rounds_eq]
      · rwa [Region.hasRemaining_iff]
    rw [hnew.remaining_eq] at hempty
    rw [List.take_of_length_le (by omega)]
  refused _ _ := by
    rw [drained, hnew.window_eq]
    exact append_take_drop bs new k
  failed := nofun
  filling := nofun
  draining := nofun

/-- After a complete round that was not the last one everything was handed on. -/
theorem next (h : p.Underway start n bs a) (hnew : p.Handed a new k) (hcompletes : p.Completes a)
    (hmore : ((p.filling a).state.2.hasRemaining || (p.draining a).state.2.hasRemaining) = false) :
    p.Underway start (n + 1) (bs ++ new)
      (p.drained a,
        ⟨a.2.moved + ((p.filling a).state.2.position - (p.draining a).state.2.remaining),
          a.2.rounds + 1⟩) := by
  have hround := round_of_completes hcompletes
  rw [hmore, if_neg Bool.false_ne_true] at hround
  obtain ⟨-, hdrained⟩ := Bool.or_eq_false_iff.1 hmore
  rw [Region.hasRemaining_eq_false, hnew.remaining_eq] at hdrained
  have hall : new.take k = new := List.take_of_length_le (by omega)
  have hgiven := hnew.given
  rw [hall] at hgiven
  refine ⟨?_, Meter.trans h.source hnew.taken, Meter.trans h.target hgiven,
    h.length_append_le hnew, ?_, ?_, hnew.readOnly_eq⟩
  · rw [← hround.2]
    exact h.rounds.snoc hround.1
  · dsimp only
    rw [h.moved_eq, hnew.position_eq, hnew.remaining_eq, List.length_append]
    omega
  · dsimp only
    rw [h.rounds_eq]

/-- However many rounds there are, every byte is accounted for. -/
theorem ends_rounds [MeteredSource σ] [MeteredSink τ] (turns : Nat) (strategy : Strategy)
    (h : p.Underway start n bs a) :
    (repeatUntil turns p.round (pure ())).Ends a fun answer b =>
      ∃ taken given,
        p.Accounted start (answer.map fun _ => ⟨b.2.moved, b.2.rounds, strategy⟩) b.1 taken
          given := by
  induction turns generalizing n bs a with
  | zero =>
    rw [repeatUntil_zero]
    exact ⟨bs, bs, h.accounted strategy rfl rfl⟩
  | succ turns ih =>
    rw [ends_repeatUntil_succ]
    by_cases hwants : p.wantsMore a.2.moved = true
    · obtain ⟨new, k, hnew⟩ := exists_handed (p := p) h.readOnly_eq
      rcases cases_of_wants hwants with ⟨fault, hfails⟩ | ⟨fault, hfails⟩ | hcompletes
      · refine (round_of_failsFilling hfails).of_answer ?_
        intro b hb
        subst hb
        exact ⟨_, _, h.accounted_of_failsFilling hnew hfails⟩
      · refine (round_of_failsDraining hfails).of_answer ?_
        intro b hb
        subst hb
        exact ⟨_, _, h.accounted_of_failsDraining hnew hfails⟩
      · refine (round_of_completes hcompletes).of_answer ?_
        intro b hb
        subst hb
        by_cases hlast :
            ((p.filling a).state.2.hasRemaining || (p.draining a).state.2.hasRemaining) = true
        · rw [if_pos hlast]
          exact ⟨_, _, h.accounted_of_completes hnew hcompletes strategy⟩
        · rw [if_neg hlast]
          exact ih (h.next hnew hcompletes (by simpa using hlast))
    · refine (round_of_enough (by simpa using hwants)).of_answer ?_
      intro b hb
      subst hb
      exact ⟨bs, bs, h.accounted strategy rfl rfl⟩

end Underway

/-- A transfer through a region of the caller accounts for every byte.  Nothing is asked of
the supply here, so this holds of any number of rounds. -/
theorem ends_runThrough_accounted [Supply σ] [MeteredSource σ] [MeteredSink τ] (p : Plan) (s : σ)
    (t : τ) {r : Region} (hwritable : r.readOnly = false) (hcapacity : r.capacity ≠ 0) :
    p.runThrough.Ends ((s, t), r) fun answer q =>
      ∃ taken given, p.Accounted ⟨s, t, r⟩ answer ⟨q.1.1, q.1.2, q.2⟩ taken given := by
  rw [ends_runThrough p hwritable, if_neg hcapacity, ends_runBetween, ends_runBuffered]
  have hinitial : p.Underway (⟨s, t, r⟩ : Channel σ τ) 0 [] (⟨s, t, r⟩, ⟨0, 0⟩) :=
    Underway.initial hwritable
  exact hinitial.ends_rounds ..

end ByteFlow.Plan

namespace ByteFlow

variable {D E S T : Type} [InputDevice D] [Supply D] [Source S] [Supply S] [PlainSource S]
  [OutputDevice E] [Sink T] [PlainSink T]

/-- Whatever the endpoints of two trees do, a transfer between them through a region of
the caller accounts for every byte. -/
theorem Tree.runThrough_accounted {m n : Nat} (p : Plan)
    (s : Tree StandardPolicy (SourceEnd D S) m) (t : Tree StandardPolicy (SinkEnd E T) n)
    {r : Region} (hwritable : r.readOnly = false) (hcapacity : r.capacity ≠ 0) :
    ∃ taken given,
      p.Accounted ⟨s, t, r⟩ (p.runThrough.run ((s, t), r)).answer
        ⟨(p.runThrough.run ((s, t), r)).state.1.1, (p.runThrough.run ((s, t), r)).state.1.2,
          (p.runThrough.run ((s, t), r)).state.2⟩ taken given :=
  Plan.ends_runThrough_accounted p s t hwritable hcapacity

/-- A source that fails at its fifth byte, in the second round of three bytes.  The fourth
byte was taken and is in the region. -/
theorem Tree.runThrough_accounted_of_fault :
    let s : Tree StandardPolicy (SourceEnd (Recorded ScriptedInput) (Recorded FaultySource)) 1 :=
      Layer.endpoint (.outside
        { inner := { data := Bytes.ofList [1, 2, 3, 4, 5], traps := [⟨4, .closed⟩] } })
    let t : Tree StandardPolicy (SinkEnd ScriptedOutput FaultySink) 1 :=
      Layer.endpoint (.outside {})
    let r := Region.allocate 3 .direct
    let p : Plan := { limit := some 9 }
    (p.runThrough.run ((s, t), r)).answer = .error .closed ∧
      ∃ taken given, taken = given ++ [4] ∧
        Exactly s taken (p.runThrough.run ((s, t), r)).state.1.1 ∧
        Moved t given (p.runThrough.run ((s, t), r)).state.1.2 := by
  intro s t r p
  have hanswer : (p.runThrough.run ((s, t), r)).answer = .error .closed := by decide +kernel
  have hround : (p.round.run (⟨s, t, r⟩, ⟨0, 0⟩)).answer = .ok none := by decide +kernel
  have hwants : p.wantsMore (p.round.run (⟨s, t, r⟩, ⟨0, 0⟩)).state.2.moved = true := by
    decide +kernel
  have hfilling : (p.filling (p.round.run (⟨s, t, r⟩, ⟨0, 0⟩)).state).answer = .error .closed := by
    decide +kernel
  have hfails : p.FillFails ⟨s, t, r⟩ :=
    ⟨1, (p.round.run (⟨s, t, r⟩, ⟨0, 0⟩)).state, .closed, .succ hround (.zero _),
      And.intro hwants hfilling⟩
  have hregion : (p.runThrough.run ((s, t), r)).state.2.filled.list = [4] := by decide +kernel
  obtain ⟨taken, given, h⟩ := Tree.runThrough_accounted p s t (r := r) rfl (by decide +kernel)
  -- what is left to do does not depend on the run, which should not be computed again
  generalize p.runThrough.run ((s, t), r) = outcome at hanswer hregion h ⊢
  have hleft := h.filling hanswer hfails
  rw [hregion] at hleft
  exact ⟨hanswer, taken, given, hleft, Faithful.exactly h.source, h.target⟩

end ByteFlow
