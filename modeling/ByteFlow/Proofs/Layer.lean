import ByteFlow.Layer.Tree
import ByteFlow.Proofs.Region

/-!
# How the layers act

One rule for each way in which a layer lets an operation through: what the layer ends
with, in terms of what the stream under it ends with.  A chain is taken apart member by
member: `Chain.ends_pull_cons` and `Chain.ends_spread_cons` treat the active member and
leave the chain without it to an induction.

## Main definitions

* `Quota.ends_counted`, `Quota.ends_clipped` — operations within a quota.
* `Chain.ends_leave_cons`, `Chain.ends_pull_cons`, `Chain.ends_spread_cons` — a chain with
  an active member.
* `Chain.ends_finish` — closing a chain.
* `StandardPolicy.ends_apply` — a usual policy.
-/

namespace ByteFlow

open ByteFlow.Action

variable {P σ ρ α : Type}

/-! ## Bulk operations that may not come short -/

theorem Source.ends_fillCompletely (fill : Action (σ × Region) Unit) (p : σ × Region)
    (Q : Except Fault Unit → σ × Region → Prop) :
    (fillCompletely fill).Ends p Q ↔
      fill.Ends p fun answer p =>
        Q (answer.bind fun _ => if p.2.remaining = 0 then .ok () else .error .endOfStream) p := by
  rw [fillCompletely, ends_bind]
  refine ends_congr fun answer p => ?_
  cases answer with
  | error fault => rfl
  | ok _ => by_cases hr : p.2.remaining = 0 <;> simp [Except.bind, hr]

theorem Sink.ends_drainCompletely (drain : Action (σ × Region) Unit) (bytes : Bytes) (s : σ)
    (Q : Except Fault Unit → σ → Prop) :
    (drainCompletely drain bytes).Ends s Q ↔
      drain.Ends (s, Region.wrapReadOnly bytes) fun answer p =>
        Q (answer.bind fun _ => if p.2.remaining = 0 then .ok () else .error .endOfStream) p.1 := by
  simp only [drainCompletely, bind_pure_comp, ends_map, ends_alongside, ends_bind drain]
  refine ends_congr fun answer p => ?_
  cases answer with
  | error fault => rfl
  | ok _ => by_cases hr : p.2.remaining = 0 <;> simp [Except.bind, hr]

/-! ## Quotas -/

namespace Quota

theorem ends_counted (x : Action σ α) (q : Quota σ) (Q : Except Fault α → Quota σ → Prop) :
    (counted x).Ends q Q ↔
      if q.remaining = 0 then Q (.error .endOfStream) q
      else
        x.Ends q.inner fun answer s =>
          match answer with
          | .ok a => Q (.ok a) ⟨s, q.remaining - 1⟩
          | .error fault => Q (.error fault) ⟨s, q.remaining⟩ := by
  rcases q with ⟨inner, remaining⟩
  simp only [Ends, counted]
  split
  · rfl
  · rcases x.run inner with ⟨_ | _, _, _⟩ <;> rfl

theorem ends_clipped (bulk : Action (σ × Region) Unit) (q : Quota σ) (r : Region)
    (Q : Except Fault Unit → Quota σ × Region → Prop) :
    (clipped bulk).Ends (q, r) Q ↔
      if q.remaining = 0 then Q (.ok ()) (q, r)
      else
        bulk.Ends (q.inner, r.narrowed q.remaining) fun answer p =>
          Q answer (⟨p.1, q.remaining - (p.2.position - r.position)⟩, p.2.setLimit r.limit) := by
  simp only [Ends, clipped]
  split <;> rfl

@[simp] theorem ends_onInner (x : Action σ α) (q : Quota σ) (Q : Except Fault α → Quota σ → Prop) :
    (onInner x).Ends q Q ↔ x.Ends q.inner fun answer s => Q answer ⟨s, q.remaining⟩ := Iff.rfl

end Quota

/-! ## Wrappers that hand operations on -/

namespace Closing

/-- While the flag is down the operation reaches the stream under the wrapper. -/
theorem ends_whenOpen {c : Closing P σ} (h : c.closed = false) (x : Action σ α)
    (Q : Except Fault α → Closing P σ → Prop) :
    (whenOpen x).Ends c Q ↔ x.Ends c.inner fun answer s => Q answer { c with inner := s } := by
  rcases c with ⟨inner, policy, applied, closed⟩
  obtain rfl : closed = false := h
  rfl

theorem ends_whenOpen_of_closed {c : Closing P σ} (h : c.closed = true) (x : Action σ α)
    (Q : Except Fault α → Closing P σ → Prop) :
    (whenOpen x).Ends c Q ↔ Q (.error .closed) c := by
  rcases c with ⟨inner, policy, applied, closed⟩
  obtain rfl : closed = true := h
  rfl

theorem ends_whenOpenWith {c : Closing P σ} (h : c.closed = false) (x : Action (σ × ρ) α) (a : ρ)
    (Q : Except Fault α → Closing P σ × ρ → Prop) :
    (whenOpenWith x).Ends (c, a) Q ↔
      x.Ends (c.inner, a) fun answer p => Q answer ({ c with inner := p.1 }, p.2) := by
  rcases c with ⟨inner, policy, applied, closed⟩
  obtain rfl : closed = false := h
  rfl

theorem ends_whenOpenWith_of_closed {c : Closing P σ} (h : c.closed = true)
    (x : Action (σ × ρ) α) (a : ρ) (Q : Except Fault α → Closing P σ × ρ → Prop) :
    (whenOpenWith x).Ends (c, a) Q ↔ Q (.error .closed) (c, a) := by
  rcases c with ⟨inner, policy, applied, closed⟩
  obtain rfl : closed = true := h
  rfl

/-- The policy is run the first time only. -/
theorem ends_shut [ClosePolicy P σ] (c : Closing P σ) (Q : Except Fault Unit → Closing P σ → Prop) :
    (shut : Action (Closing P σ) Unit).Ends c Q ↔
      if c.applied then Q (.ok ()) c
      else
        (ClosePolicy.onClose : Action (P × σ) Bool).Ends (c.policy, c.inner) fun answer p =>
          match answer with
          | .ok closed => Q (.ok ()) ⟨p.2, p.1, true, closed⟩
          | .error fault => Q (.error fault) ⟨p.2, p.1, true, c.closed⟩ := by
  rcases c with ⟨inner, policy, applied, closed⟩
  simp only [Ends, shut]
  cases applied
  · rcases (ClosePolicy.onClose : Action (P × σ) Bool).run (policy, inner) with ⟨_ | _, _, _⟩
    · rfl
    · rfl
  · rfl

end Closing

@[simp] theorem Relay.ends_pass (x : Action σ α) (t : Relay σ)
    (Q : Except Fault α → Relay σ → Prop) :
    (pass x).Ends t Q ↔ x.Ends t.inner fun answer s => Q answer ⟨s⟩ := Iff.rfl

@[simp] theorem Relay.ends_passWith (x : Action (σ × ρ) α) (p : Relay σ × ρ)
    (Q : Except Fault α → Relay σ × ρ → Prop) :
    (passWith x).Ends p Q ↔ x.Ends (p.1.inner, p.2) fun answer q => Q answer (⟨q.1⟩, q.2) :=
  Iff.rfl

@[simp] theorem Traced.ends_observed (call : Except Fault α → Call) (x : Action σ α) (t : Traced σ)
    (Q : Except Fault α → Traced σ → Prop) :
    (observed call x).Ends t Q ↔ x.Ends t.inner fun answer s => Q answer ⟨s, t.label⟩ := Iff.rfl

@[simp] theorem Traced.ends_observedWith (before : ρ → Nat)
    (call : Nat → ρ → Except Fault α → Call) (x : Action (σ × ρ) α) (p : Traced σ × ρ)
    (Q : Except Fault α → Traced σ × ρ → Prop) :
    (observedWith before call x).Ends p Q ↔
      x.Ends (p.1.inner, p.2) fun answer q => Q answer (⟨q.1, p.1.label⟩, q.2) := Iff.rfl

/-! ## Policies -/

namespace StandardPolicy

/-- Only closing touches the stream; the policy itself never changes. -/
theorem ends_apply [Closeable σ] (p : StandardPolicy) (s : σ)
    (Q : Except Fault Bool → StandardPolicy × σ → Prop) :
    (apply : Action (StandardPolicy × σ) Bool).Ends (p, s) Q ↔
      match p with
      | close =>
        (Closeable.close : Action σ Unit).Ends s fun answer s => Q (answer.map fun _ => true) (p, s)
      | leaveOpen => Q (.ok false) (p, s)
      | fence => Q (.ok true) (p, s) := by
  cases p
  · simp [apply]
  · simp [apply]
  · simp [apply]

end StandardPolicy

/-! ## Chains -/

namespace Chain

variable [ClosePolicy P σ] {settle : Action σ Unit} {left rest : List σ} {m : σ} {policy : P}
  {closed : Bool}

/-- The member is settled, then the policy is run on it, and the earlier fault counts. -/
theorem ends_leave_cons (settle : Action σ Unit) (Q : Except Fault Unit → Chain P σ → Prop) :
    (leave settle).Ends ⟨left, m :: rest, policy, closed⟩ Q ↔
      settle.Ends m fun settled m =>
        (ClosePolicy.onClose : Action (P × σ) Bool).Ends (policy, m) fun judged p =>
          Q (settled.bind fun _ => judged.map fun _ => ()) ⟨p.2 :: left, rest, p.1, closed⟩ := by
  rfl

@[simp] theorem ends_leave_nil (settle : Action σ Unit) (Q : Except Fault Unit → Chain P σ → Prop) :
    (leave settle).Ends ⟨left, [], policy, closed⟩ Q ↔ Q (.ok ()) ⟨left, [], policy, closed⟩ :=
  Iff.rfl

/-- The chain that moved on has one member less ahead. -/
theorem ends_leave_congr {settle : Action σ Unit} {Q R : Except Fault Unit → Chain P σ → Prop}
    (h : ∀ moved c, c.ahead.length = rest.length → (Q moved c ↔ R moved c)) :
    (leave settle).Ends ⟨left, m :: rest, policy, closed⟩ Q ↔
      (leave settle).Ends ⟨left, m :: rest, policy, closed⟩ R := by
  rw [ends_leave_cons, ends_leave_cons]
  exact ends_congr fun _ _ => ends_congr fun _ _ => h _ _ rfl

omit [ClosePolicy P σ] in
theorem ends_onActive_cons (x : Action σ α) (Q : Except Fault α → Chain P σ → Prop) :
    (onActive x).Ends ⟨left, m :: rest, policy, closed⟩ Q ↔
      x.Ends m fun answer m => Q answer ⟨left, m :: rest, policy, closed⟩ := Iff.rfl

omit [ClosePolicy P σ] in
theorem ends_onActiveWith_cons (x : Action (σ × ρ) α) (a : ρ)
    (Q : Except Fault α → Chain P σ × ρ → Prop) :
    (onActiveWith x).Ends (⟨left, m :: rest, policy, closed⟩, a) Q ↔
      x.Ends (m, a) fun answer p => Q answer (⟨left, p.1 :: rest, policy, closed⟩, p.2) := Iff.rfl

@[simp] theorem ends_pull_nil (settle : Action σ Unit) (x : Action σ α)
    (Q : Except Fault α → Chain P σ → Prop) :
    (pull settle x).Ends ⟨left, [], policy, closed⟩ Q ↔
      Q (.error .endOfStream) ⟨left, [], policy, closed⟩ := by
  simp [pull]

/-- The active member is asked, and left when it is exhausted. -/
theorem ends_pull_cons (settle : Action σ Unit) (x : Action σ α)
    (Q : Except Fault α → Chain P σ → Prop) :
    (pull settle x).Ends ⟨left, m :: rest, policy, closed⟩ Q ↔
      x.Ends m fun answer m =>
        (answer ≠ .error .endOfStream → Q answer ⟨left, m :: rest, policy, closed⟩) ∧
        (answer = .error .endOfStream →
          (leave settle).Ends ⟨left, m :: rest, policy, closed⟩ fun moved c =>
            match moved with
            | .ok _ => (pull settle x).Ends c Q
            | .error fault => Q (.error fault) c) := by
  simp only [pull, ends_gets_bind, List.length_cons, ends_repeatUntil_succ, ends_attempt_bind,
    ends_onActive_cons]
  refine ends_congr fun answer m => ?_
  rcases answer with fault | a
  · cases fault
    · simp only [ne_eq, not_true_eq_false, false_imp_iff, true_imp_iff, true_and, ends_bind]
      -- the loop has as many turns left as a new one would take
      refine ends_leave_congr fun moved c h => ?_
      rw [h]
      cases moved <;> simp
    all_goals simp
  · simp

@[simp] theorem ends_spread_nil (settle : Action σ Unit) (bulk : Action (σ × Region) Unit)
    (r : Region) (Q : Except Fault Unit → Chain P σ × Region → Prop) :
    (spread settle bulk).Ends (⟨left, [], policy, closed⟩, r) Q ↔
      Q (.ok ()) (⟨left, [], policy, closed⟩, r) := by
  simp [spread]

/-- The active member does what it can, and is left when that was not enough. -/
theorem ends_spread_cons (settle : Action σ Unit) (bulk : Action (σ × Region) Unit) (r : Region)
    (Q : Except Fault Unit → Chain P σ × Region → Prop) :
    (spread settle bulk).Ends (⟨left, m :: rest, policy, closed⟩, r) Q ↔
      if r.remaining = 0 then Q (.ok ()) (⟨left, m :: rest, policy, closed⟩, r)
      else
        bulk.Ends (m, r) fun answer p =>
          match answer with
          | .error fault => Q (.error fault) (⟨left, p.1 :: rest, policy, closed⟩, p.2)
          | .ok _ =>
            if p.2.remaining = 0 then Q (.ok ()) (⟨left, p.1 :: rest, policy, closed⟩, p.2)
            else
              (leave settle).Ends ⟨left, p.1 :: rest, policy, closed⟩ fun moved c =>
                match moved with
                | .ok _ => (spread settle bulk).Ends (c, p.2) Q
                | .error fault => Q (.error fault) (c, p.2) := by
  simp only [spread, ends_gets_bind, List.length_cons, ends_repeatUntil_succ]
  by_cases hr : r.remaining = 0
  · simp [hr]
  simp only [hr, if_false, Region.hasRemaining_iff, ne_eq, not_false_eq_true, if_true, ends_bind,
    ends_onActiveWith_cons]
  refine ends_congr fun answer p => ?_
  rcases answer with fault | _
  · simp
  by_cases hp : p.2.remaining = 0
  · simp [hp]
  simp only [hp, ends_gets, Region.hasRemaining_iff, ne_eq, not_false_eq_true, if_true,
    if_false, ends_bind, ends_onFirst]
  refine ends_leave_congr fun moved c h => ?_
  rw [h]
  cases moved <;> simp

/-- A relation between what was found and what was left holds of the chain if it holds of
the active member and of leaving it. -/
theorem ends_spread_of_trans {bulk : Action (σ × Region) Unit} {I : Region → Prop}
    {R : Chain P σ → Region → Chain P σ × Region → Prop} (hrefl : ∀ c r, R c r (c, r))
    (htrans : ∀ {c r d q p}, I r → R c r (d, q) → R d q p → R c r p)
    (hactive : ∀ left m rest policy closed r, I r → bulk.Ends (m, r) fun _ p =>
      R ⟨left, m :: rest, policy, closed⟩ r (⟨left, p.1 :: rest, policy, closed⟩, p.2) ∧ I p.2)
    (hleave : ∀ {c m rest} (r : Region), c.ahead = m :: rest →
      (leave settle).Ends c fun _ d => R c r (d, r) ∧ d.ahead = rest)
    (c : Chain P σ) {r : Region} (hr : I r) :
    (spread settle bulk).Ends (c, r) fun _ p => R c r p := by
  generalize hahead : c.ahead = ahead
  induction ahead generalizing c r with
  | nil =>
    rcases c with ⟨left, ahead, policy, closed⟩
    obtain rfl : ahead = [] := hahead
    rw [ends_spread_nil]
    exact hrefl ..
  | cons m rest ih =>
    rcases c with ⟨left, ahead, policy, closed⟩
    obtain rfl : ahead = m :: rest := hahead
    rw [ends_spread_cons]
    by_cases hroom : r.remaining = 0
    · rw [if_pos hroom]
      exact hrefl ..
    rw [if_neg hroom]
    refine (hactive left m rest policy closed r hr).mono ?_
    intro answer final hends
    obtain ⟨m', q⟩ := final
    obtain ⟨hdone, hq⟩ := hends
    rcases answer with fault | _
    · exact hdone
    by_cases hfull : q.remaining = 0
    · simp only [hfull, if_true]
      exact hdone
    simp only [hfull, if_false]
    refine (hleave q rfl).mono ?_
    intro moved d hends
    obtain ⟨hleft, hrest⟩ := hends
    have hmoved := htrans hr hdone hleft
    rcases moved with fault | _
    · exact hmoved
    -- the members after the active one go on where it stopped
    refine (ih d hq hrest).mono ?_
    intro answer p hp
    exact htrans hr hmoved hp

/-- What holds wherever it stops holds of a bulk operation over as many members as it takes: when
there are no more members or there is no more room, when a member fails, and when leaving one
does. -/
theorem ends_spread_of_stops {bulk : Action (σ × Region) Unit} {I : Region → Prop}
    {Q : Except Fault Unit → Chain P σ × Region → Prop}
    (hover : ∀ {c r}, c.ahead = [] ∨ r.remaining = 0 → Q (.ok ()) (c, r))
    (hbulk : ∀ m r, I r → r.remaining ≠ 0 → bulk.Ends (m, r) fun answer p =>
      I p.2 ∧ ∀ fault, answer = .error fault → ∀ c, Q (.error fault) (c, p.2))
    (hleave : ∀ {c r} fault, r.remaining ≠ 0 → Q (.error fault) (c, r))
    (c : Chain P σ) {r : Region} (hr : I r) : (spread settle bulk).Ends (c, r) Q := by
  generalize hahead : c.ahead = ahead
  induction ahead generalizing c r with
  | nil =>
    rcases c with ⟨left, ahead, policy, closed⟩
    obtain rfl : ahead = [] := hahead
    rw [ends_spread_nil]
    exact hover (.inl rfl)
  | cons m rest ih =>
    rcases c with ⟨left, ahead, policy, closed⟩
    obtain rfl : ahead = m :: rest := hahead
    rw [ends_spread_cons]
    by_cases hroom : r.remaining = 0
    · rw [if_pos hroom]
      exact hover (.inr hroom)
    rw [if_neg hroom]
    refine (hbulk m r hr hroom).mono ?_
    rintro answer ⟨m', q⟩ ⟨hq, hfails⟩
    rcases answer with fault | _
    · exact hfails fault rfl _
    by_cases hfull : q.remaining = 0
    · simp only [hfull, if_true]
      exact hover (.inr hfull)
    simp only [hfull, if_false]
    rw [ends_leave_cons]
    -- whatever becomes of the member, there is still something to be done
    refine .of_forall fun settled m'' => .of_forall fun judged p => ?_
    split
    · exact ih _ hq rfl
    · exact hleave _ hfull

/-! ### Closing a chain -/

@[simp] theorem ends_leaveEach_zero (settle : Action σ Unit) (first : Option Fault)
    (c : Chain P σ) (Q : Except Fault (Option Fault) → Chain P σ → Prop) :
    (leaveEach settle 0 first).Ends c Q ↔ Q (.ok first) c := Iff.rfl

/-- A fault does not stop the leaving, and the earliest one is kept. -/
theorem ends_leaveEach_succ (settle : Action σ Unit) (n : Nat) (first : Option Fault)
    (c : Chain P σ) (Q : Except Fault (Option Fault) → Chain P σ → Prop) :
    (leaveEach settle (n + 1) first).Ends c Q ↔
      (leave settle).Ends c fun answer c =>
        match answer with
        | .ok _ => (leaveEach settle n first).Ends c Q
        | .error fault => (leaveEach settle n (first.or (some fault))).Ends c Q := by
  rw [leaveEach, ends_attempt_bind]
  refine ends_congr fun answer c => ?_
  cases answer <;> rfl

omit [ClosePolicy P σ] in
theorem ends_closeLast (close : Action σ Unit) (c : Chain P σ)
    (Q : Except Fault Unit → Chain P σ → Prop) :
    (closeLast close).Ends c Q ↔
      match c.left with
      | [] => Q (.ok ()) c
      | last :: earlier =>
        close.Ends last fun answer last => Q answer { c with left := last :: earlier } := by
  rcases c with ⟨_ | ⟨last, earlier⟩, ahead, policy, closed⟩ <;> rfl

/-- All members ahead are left, and the last one of all is closed. -/
theorem ends_finish (settle close : Action σ Unit) (c : Chain P σ)
    (Q : Except Fault Unit → Chain P σ → Prop) :
    (finish settle close).Ends c Q ↔
      if c.closed then Q (.ok ()) c
      else
        (leaveEach settle c.ahead.length none).Ends { c with closed := true } fun answer c =>
          match answer with
          | .ok (some fault) => (closeLast close).Ends c fun _ c => Q (.error fault) c
          | .ok none => (closeLast close).Ends c Q
          | .error fault => Q (.error fault) c := by
  simp only [finish, ends_gets_bind]
  by_cases hc : c.closed = true
  · simp [hc]
  simp only [hc, if_false, Bool.false_eq_true]
  rw [ends_modify_bind, ends_gets_bind, ends_bind]
  refine ends_congr fun answer c => ?_
  rcases answer with fault | _ | fault
  · rfl
  · simp only [ends_attempt_bind]
    refine ends_congr fun answer c => ?_
    cases answer <;> rfl
  · simp

end Chain

end ByteFlow
