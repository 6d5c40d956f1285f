import ByteFlow.Proofs.Chain.Exhaustion
import ByteFlow.Proofs.Refusal
import ByteFlow.Scripted.Policy

/-!
# Closing a chain

A chain is closed step by step: every member from the active one on is settled and judged, in
order, and then the last member of all is closed.  A step that fails stops nothing, and the
earliest fault is the answer.  After that the chain is finished.  It does nothing but answer any
more, and no member is touched.

## Main definitions

* `Chain.Contact.what`, `Chain.Contact.fault` — the step that a contact is, and how it failed.
* `Chain.closingSteps` — the steps that close a chain.
* `Chain.Finishes` — these steps were taken, and none of the faults was lost.
* `Chain.ends_finish_steps` — a chain is closed by these steps, whatever fails.
* `Chain.finishes_once` — they are taken once, and nothing happens after them.
-/

namespace ByteFlow

open ByteFlow.Action

variable {P σ τ : Type}

namespace Chain

/-! ## The steps -/

/-- What a chain can do to a member. -/
inductive Step where
  | use | settle | judge | shut
  deriving DecidableEq

/-- What was done to which member. -/
def Contact.what : Contact → Step × Nat
  | used member _ => (.use, member)
  | settled member _ => (.settle, member)
  | judged member _ => (.judge, member)
  | shut member _ => (.shut, member)

/-- The fault that the member or the policy answered. -/
def Contact.fault : Contact → Option Fault
  | used _ answer | settled _ answer | judged _ answer | shut _ answer =>
    match answer with
    | .ok _ => none
    | .error fault => some fault

/-- What is answered if there was a fault, and if there was none. -/
def succeedUnless : Option Fault → Except Fault Unit
  | none => .ok ()
  | some fault => .error fault

/-- So many members, from the given one on, are settled and judged. -/
def leavingSteps (i n : Nat) : List (Step × Nat) :=
  (List.range' i n).flatMap fun j => [(.settle, j), (.judge, j)]

/-- A chain of so many members is closed, from the given one on.  Only the last is shut. -/
def closingSteps (i total : Nat) : List (Step × Nat) :=
  leavingSteps i (total - i) ++ if total = 0 then [] else [(.shut, total - 1)]

section Steps

variable [ClosePolicy P σ] {hands : Hands σ}

/-- The contacts closed the chain `c` and left `d`: they are the steps for it, they account for
all that has changed, and the earliest fault among them is the answer. -/
structure Finishes (hands : Hands σ) (c : Chain P σ) (log : List Contact)
    (answer : Except Fault Unit) (d : Chain P σ) : Prop where
  replay : Replay hands log (c.policy, c.members) (d.policy, d.members)
  steps : log.map Contact.what = closingSteps c.left.length c.members.length
  answer_eq : answer = succeedUnless (log.findSome? Contact.fault)
  cursor_eq : d.cursor = .exhausted
  closed : d.closed = true

/-- The contacts left so many members of the chain `c` and led to `d`. -/
structure Departs (hands : Hands σ) (c : Chain P σ) (n : Nat) (log : List Contact)
    (d : Chain P σ) : Prop where
  replay : Replay hands log (c.policy, c.members) (d.policy, d.members)
  steps : log.map Contact.what = leavingSteps c.left.length n
  length_left : d.left.length = c.left.length + n
  closed : d.closed = c.closed

theorem Departs.refl (hands : Hands σ) (c : Chain P σ) : Departs hands c 0 [] c :=
  ⟨.nil _, rfl, rfl, rfl⟩

/-- The members after the first ones are left next. -/
theorem Departs.trans {c d e : Chain P σ} {k n : Nat} {log more : List Contact}
    (h : Departs hands c k log d) (h' : Departs hands d n more e) :
    Departs hands c (k + n) (log ++ more) e where
  replay := h.replay.append h'.replay
  steps := by
    rw [List.map_append, h.steps, h'.steps, h.length_left, leavingSteps, leavingSteps, leavingSteps,
      ← List.flatMap_append, List.range'_append_1]
  length_left := by
    rw [h'.length_left, h.length_left, Nat.add_assoc]
  closed := h'.closed.trans h.closed

/-- The active member is left, and the earlier fault of the two is the answer. -/
theorem ends_leave_departs (hands : Hands σ) {left rest : List σ} {m : σ} {policy : P}
    {closed : Bool} :
    (leave hands.settle).Ends (⟨left, m :: rest, policy, closed⟩ : Chain P σ) fun answer d =>
      d.ahead = rest ∧ ∃ log, Departs hands ⟨left, m :: rest, policy, closed⟩ 1 log d ∧
        answer = succeedUnless (log.findSome? Contact.fault) := by
  rw [ends_leave_cons]
  refine Ends.mono (Q := fun settled m' => Results hands.settle m (settled.map fun _ => ()) m')
    ⟨rfl, rfl⟩ ?_
  intro settled m' hsettled
  refine Ends.mono (Q := fun judged p =>
    Results ClosePolicy.onClose (policy, m') (judged.map fun _ => ()) p) ⟨rfl, rfl⟩ ?_
  intro judged p hjudged
  refine ⟨rfl, _, ⟨(course_left hsettled hjudged).replay, rfl, rfl, rfl⟩, ?_⟩
  cases settled <;> cases judged <;> rfl

/-- All members that are ahead are left, and the earliest fault is kept. -/
theorem ends_leaveEach_departs (hands : Hands σ) (first : Option Fault) (c : Chain P σ) :
    (leaveEach hands.settle c.ahead.length first).Ends c fun answer d =>
      d.ahead = [] ∧ ∃ log, Departs hands c c.ahead.length log d ∧
        answer = .ok (first.or (log.findSome? Contact.fault)) := by
  generalize hahead : c.ahead = ahead
  induction ahead generalizing c first with
  | nil => exact ⟨hahead, [], .refl hands c, congrArg Except.ok Option.or_none.symm⟩
  | cons m rest ih =>
    rcases c with ⟨left, ahead, policy, closed⟩
    obtain rfl : ahead = m :: rest := hahead
    rw [List.length_cons, ends_leaveEach_succ]
    refine (ends_leave_departs hands).mono ?_
    rintro moved d ⟨hrest, log, hlog, hmoved⟩
    -- the fault of this member comes after the ones before it and before the others
    have hgo (first' : Option Fault) (hfirst : first' = first.or (log.findSome? Contact.fault)) :
        (leaveEach hands.settle rest.length first').Ends d fun answer e =>
          e.ahead = [] ∧ ∃ log, Departs hands ⟨left, m :: rest, policy, closed⟩ (rest.length + 1)
            log e ∧ answer = .ok (first.or (log.findSome? Contact.fault)) := by
      refine (ih first' d hrest).mono ?_
      rintro answer e ⟨hahead, more, hmore, rfl⟩
      refine ⟨hahead, log ++ more, ?_, ?_⟩
      · rw [Nat.add_comm]
        exact hlog.trans hmore
      · rw [List.findSome?_append, ← Option.or_assoc, hfirst]
    cases hfault : log.findSome? Contact.fault with
    | none =>
      rw [hfault] at hmoved hgo
      cases hmoved
      exact hgo first (by simp)
    | some fault =>
      rw [hfault] at hmoved hgo
      cases hmoved
      exact hgo _ rfl

/-- The last member of all is closed, if there is one. -/
theorem ends_closeLast_shut (hands : Hands σ) {c : Chain P σ} (hahead : c.ahead = []) :
    (closeLast hands.close).Ends c fun answer d => d.ahead = [] ∧ d.closed = c.closed ∧
      ∃ log, Replay hands log (c.policy, c.members) (d.policy, d.members) ∧
        log.map Contact.what = (if c.left.length = 0 then [] else [(.shut, c.left.length - 1)]) ∧
        answer = succeedUnless (log.findSome? Contact.fault) := by
  rcases c with ⟨left, ahead, policy, closed⟩
  obtain rfl : ahead = [] := hahead
  rw [ends_closeLast]
  cases left with
  | nil => exact ⟨rfl, rfl, [], .nil _, rfl, rfl⟩
  | cons last earlier =>
    refine Ends.mono
      (Q := fun answer last' => Results hands.close last (answer.map fun _ => ()) last')
      ⟨rfl, rfl⟩ ?_
    intro answer last' hresults
    refine ⟨rfl, rfl, [.shut earlier.length (answer.map fun _ => ())], replay_shut hresults, ?_, ?_⟩
    · simp [Contact.what]
    · cases answer <;> rfl

/-- A chain is closed by leaving all members and closing the last one, whatever fails. -/
theorem ends_finish_steps (hands : Hands σ) {c : Chain P σ} (hc : c.closed = false) :
    (finish hands.settle hands.close).Ends c fun answer d =>
      ∃ log, Finishes hands c log answer d := by
  rw [ends_finish, hc, if_neg Bool.false_ne_true]
  refine (ends_leaveEach_departs hands none { c with closed := true }).mono ?_
  rintro answer d ⟨hahead, log, hlog, rfl⟩
  have hleft : d.left.length = c.members.length := by
    rw [hlog.length_left]
    simp [members]
  -- the last member is closed after all the others were left, so its fault counts last
  have hshut : (closeLast hands.close).Ends d fun got e => ∃ log', Finishes hands c log'
      (match log.findSome? Contact.fault with
        | none => got
        | some fault => .error fault) e := by
    refine (ends_closeLast_shut hands hahead).mono ?_
    rintro got e ⟨hdone, hclosed, more, hmore, hsteps, rfl⟩
    refine ⟨log ++ more, hlog.replay.append hmore, ?_, ?_, ?_, hclosed.trans hlog.closed⟩
    · rw [List.map_append, hlog.steps, hsteps, hleft, closingSteps]
      simp [members]
    · rw [List.findSome?_append]
      cases log.findSome? Contact.fault <;> rfl
    · rw [cursor, hdone]
  rw [Option.none_or]
  cases hfault : log.findSome? Contact.fault with
  | none => simpa only [hfault] using hshut
  | some fault => simpa only [hfault] using hshut

end Steps

/-! ## A chain that was closed -/

theorem idle_pull_nil [ClosePolicy P σ] {α : Type} (settle : Action σ Unit) (x : Action σ α)
    {c : Chain P σ} (hc : c.ahead = []) : Idle (pull settle x) c (.error .endOfStream) := by
  rw [pull, Idle, run_gets_bind, hc]
  rfl

theorem idle_spread_nil [ClosePolicy P σ] (settle : Action σ Unit)
    (bulk : Action (σ × Region) Unit) {c : Chain P σ} (hc : c.ahead = []) (r : Region) :
    Idle (spread settle bulk) (c, r) (.ok ()) := by
  rw [spread, Idle, run_gets_bind]
  simp [hc]

theorem idle_finish_of_closed [ClosePolicy P σ] (settle close : Action σ Unit) {c : Chain P σ}
    (hc : c.closed = true) : Idle (finish settle close) c (.ok ()) := by
  rw [finish, Idle, run_gets_bind, hc]
  rfl

theorem Finishes.ahead_eq [ClosePolicy P σ] {hands : Hands σ} {c d : Chain P σ}
    {log : List Contact} {answer : Except Fault Unit} (h : Finishes hands c log answer d) :
    d.ahead = [] :=
  List.isEmpty_iff.1 (cursor_eq_exhausted.1 h.cursor_eq)

/-- A chain of sources that was closed is finished. -/
theorem Finishes.source [Source σ] [ClosePolicy P σ] {hands : Hands σ} {c d : Chain P σ}
    {log : List Contact} {answer : Except Fault Unit} (h : Finishes hands c log answer d) :
    Source.Finished d where
  toDry :=
    have hahead := h.ahead_eq
    .of_readU8 (idle_pull_nil _ _ hahead) (idle_spread_nil _ _ hahead) rfl fun _ => rfl
  close := idle_finish_of_closed _ _ h.closed

/-- A chain of sinks that was closed is finished. -/
theorem Finishes.sink [Sink σ] [ClosePolicy P σ] {hands : Hands σ} {c d : Chain P σ}
    {log : List Contact} {answer : Except Fault Unit} (h : Finishes hands c log answer d) :
    Sink.Finished d where
  toFull :=
    have hahead := h.ahead_eq
    .of_writeU8 (fun _ => idle_pull_nil _ _ hahead) (idle_spread_nil _ _ hahead) (fun _ => rfl)
      fun _ => rfl
  flush := by
    change Idle (gets Chain.exhausted >>= fun exhausted => _) d _
    rw [Idle, run_gets_bind, Chain.exhausted, h.ahead_eq]
    rfl
  close := idle_finish_of_closed _ _ h.closed

/-- Closing a chain of sources or of sinks settles and judges every member that was not left,
in order, and then closes the last member of all and no other, whatever fails on the way.  The
earliest fault is the answer.  After that the chain does nothing but answer, whatever it is called
for and however often: it is closed already, and it has no byte and no room. -/
theorem finishes_once [Source σ] [Sink τ] [ClosePolicy P σ] [ClosePolicy P τ] :
    (∀ c : Chain P σ, c.closed = false →
      (Closeable.close : Action (Chain P σ) Unit).Ends c fun answer d =>
        (∃ log, Finishes ⟨fun _ _ _ => False, pure (), Closeable.close⟩ c log answer d) ∧
          Source.Finished d ∧
          ∀ calls, ∃ got, Idle (answers SourceCall.perform calls) d (.ok got)) ∧
    ∀ c : Chain P τ, c.closed = false →
      (Closeable.close : Action (Chain P τ) Unit).Ends c fun answer d =>
        (∃ log, Finishes ⟨fun _ _ _ => False, Sink.flush, Closeable.close⟩ c log answer d) ∧
          Sink.Finished d ∧
          ∀ calls, ∃ got, Idle (answers SinkCall.perform calls) d (.ok got) := by
  constructor
  · intro c hc
    refine (ends_finish_steps ⟨fun _ _ _ => False, pure (), Closeable.close⟩ hc).mono ?_
    rintro answer d ⟨log, hlog⟩
    exact ⟨⟨log, hlog⟩, hlog.source, idle_answers hlog.source.idle_perform⟩
  · intro c hc
    refine (ends_finish_steps ⟨fun _ _ _ => False, Sink.flush, Closeable.close⟩ hc).mono ?_
    rintro answer d ⟨log, hlog⟩
    exact ⟨⟨log, hlog⟩, hlog.sink, idle_answers hlog.sink.idle_perform⟩

/-- The policy closes the first of two sinks and fails on the second, which can neither be
flushed nor closed.  The flush was the first to fail. -/
theorem finishes_once_of_faults :
    let c : Chain Policy FaultySink :=
      .new (.scripted { script := #[{ close := true }, { answer := .error .closed }] })
        [{}, { flushFaults := [some (.corrupt .loneSurrogate)], closeFaults := [some .closed] }]
    c.closed = false ∧ (Closeable.close : Action (Chain Policy FaultySink) Unit).Ends c
      fun answer d => answer = .error (.corrupt .loneSurrogate) ∧
        (∃ log, Finishes ⟨fun _ _ _ => False, Sink.flush, Closeable.close⟩ c log answer d ∧
          log.map Contact.what =
            [(.settle, 0), (.judge, 0), (.settle, 1), (.judge, 1), (.shut, 1)]) ∧
        d.members.map FaultySink.closes = [1, 1] ∧ Sink.Finished d := by
  intro c
  have hc : c.closed = false := rfl
  obtain ⟨⟨log, hlog⟩, hdone, -⟩ :=
    (finishes_once (P := Policy) (σ := FaultySource) (τ := FaultySink)).2 c hc
  exact ⟨hc, rfl, ⟨log, hlog, hlog.steps⟩, rfl, hdone⟩

end Chain

end ByteFlow
