import ByteFlow.Proofs.Chain.Course

/-!
# How a chain holds its course

Every operation of a chain holds the course, whatever the members and the policy do and
however they fail.  What a member in use reports is heeded: its end makes the chain move on,
and any other fault is the answer.

## Main definitions

* `Chain.Conducts` — operations that hold the course and report the faults of members.
* `Chain.conducts_pull`, `Chain.conducts_spread`, `Chain.conducts_finish` — the three loops of
  a chain.
* `SourceCall.conducts`, `SinkCall.conducts` — all operations of a chain.
-/

namespace ByteFlow

open ByteFlow.Action

variable {P σ τ ρ α β : Type}

namespace Chain

/-- The operation holds the course, and heeds the faults of members. -/
def Conducts [ClosePolicy P σ] (hands : Hands σ) (chain : τ → Chain P σ) (x : Action τ α) : Prop :=
  ∀ t, x.Ends t fun answer u =>
    ∃ log, Course hands (chain t) log (chain u) ∧ Heeds answer log (chain u)

section Courses

variable [ClosePolicy P σ] {hands : Hands σ}

/-! ### Operations in a row -/

namespace Conducts

variable {chain : τ → Chain P σ}

/-- An operation that leaves the chain alone. -/
theorem of_unchanged {x : Action τ α} (h : ∀ t, x.Ends t fun _ u => chain u = chain t) :
    Conducts hands chain x := by
  intro t
  refine (h t).mono ?_
  intro answer u hu
  rw [hu]
  exact ⟨[], .refl hands _, .of_clean clean_nil _ _⟩

protected theorem pure (a : α) : Conducts hands chain (pure a) :=
  of_unchanged fun _ => rfl

protected theorem bind {x : Action τ α} {f : α → Action τ β} (hx : Conducts hands chain x)
    (hf : ∀ a, Conducts hands chain (f a)) : Conducts hands chain (x >>= f) := by
  intro t
  rw [ends_bind]
  refine (hx t).mono ?_
  intro answer u hends
  obtain ⟨log, hlog, hheeds⟩ := hends
  cases answer with
  | error fault => exact ⟨log, hlog, hheeds.error⟩
  | ok a =>
    refine (hf a u).mono ?_
    intro answer v hends
    obtain ⟨more, hmore, hheeds'⟩ := hends
    exact ⟨log ++ more, hlog.trans hmore, .append hheeds.clean hheeds'⟩

theorem repeatUntil {body : Action τ (Option α)} {otherwise : Action τ α}
    (hbody : Conducts hands chain body) (hotherwise : Conducts hands chain otherwise) (n : Nat) :
    Conducts hands chain (Action.repeatUntil n body otherwise) := by
  induction n with
  | zero =>
    rw [repeatUntil_zero]
    exact hotherwise
  | succ n ih =>
    rw [repeatUntil_succ]
    refine hbody.bind fun answer => ?_
    cases answer with
    | none => exact ih
    | some a => exact .pure a

theorem forEach {body : β → Action τ Unit} (hbody : ∀ b, Conducts hands chain (body b))
    (entries : List β) : Conducts hands chain (Action.forEach entries body) := by
  induction entries with
  | nil => exact .pure ()
  | cons b rest ih =>
    rw [forEach_cons]
    exact (hbody b).bind fun _ => ih

theorem onFirst {x : Action (Chain P σ) α} (hx : Conducts hands id x) :
    Conducts hands (Prod.fst : Chain P σ × ρ → Chain P σ) (Action.onFirst x) :=
  fun p => hx p.1

theorem onSecond (x : Action ρ α) :
    Conducts hands (Prod.fst : Chain P σ × ρ → Chain P σ) (Action.onSecond x) :=
  of_unchanged fun _ => rfl

theorem alongside {x : Action (Chain P σ × ρ) α} (hx : Conducts hands Prod.fst x) (a : ρ) :
    Conducts hands id (Action.alongside a x) := by
  intro c
  rw [ends_alongside]
  refine (hx (c, a)).mono ?_
  intro answer p hends
  obtain ⟨log, hlog, hheeds⟩ := hends
  refine ⟨log, hlog, ?_⟩
  cases answer with
  | error fault => exact hheeds.error
  | ok b => exact .of_clean hheeds.clean _ _

end Conducts

/-! ### The active member -/

section Active

variable {left rest : List σ} {m m' : σ} {policy : P} {closed : Bool}

omit [ClosePolicy P σ] in
/-- The cursor is the number of members that were left, unless these are all. -/
theorem cursor_eq (c : Chain P σ) : c.cursor = cursorAt c.members.length c.left.length := by
  rcases c with ⟨left, _ | ⟨m, rest⟩, policy, closed⟩
  · simp [cursor, cursorAt, members]
  · rw [cursorAt, if_pos (by simp [members])]
    rfl

/-- The member after the ones that were left can be touched. -/
theorem touch_active {contact : Contact} {policy' : P} (hmember : contact.member = left.length)
    (h : contact.Effect hands (policy, m) (policy', m')) (rest : List σ) :
    Touch hands contact (policy, left.reverse ++ m :: rest)
      (policy', left.reverse ++ m' :: rest) := by
  refine ⟨m, m', ?_, h, ?_⟩
  · simp [hmember]
  · simp [hmember]

/-- The active member is used. -/
theorem course_used {answer : Except Fault Unit} (h : hands.Uses m answer m') :
    Course hands (⟨left, m :: rest, policy, closed⟩ : Chain P σ) [.used left.length answer]
      ⟨left, m' :: rest, policy, closed⟩ := by
  have heffect : (Contact.used left.length answer).Effect hands (policy, m) (policy, m') :=
    ⟨rfl, h⟩
  refine ⟨.cons (touch_active rfl heffect rest) (.nil _), ?_, Nat.le_of_eq (Nat.zero_add _)⟩
  exact accepts_cons.2 ⟨_, if_pos rfl, .nil _ _⟩

/-- The active member is settled and then judged, whatever came of that, and left. -/
theorem course_left {policy' : P} {m'' : σ} {settled judged : Except Fault Unit}
    (hsettled : Results hands.settle m settled m')
    (hjudged : Results ClosePolicy.onClose (policy, m') judged (policy', m'')) :
    Course hands (⟨left, m :: rest, policy, closed⟩ : Chain P σ)
      [.settled left.length settled, .judged left.length judged]
      ⟨m'' :: left, rest, policy', closed⟩ := by
  have hsettle : (Contact.settled left.length settled).Effect hands (policy, m) (policy, m') :=
    ⟨rfl, hsettled⟩
  have hjudge : (Contact.judged left.length judged).Effect hands (policy, m') (policy', m'') :=
    hjudged
  have hmembers : (m'' :: left).reverse ++ rest = left.reverse ++ m'' :: rest := by simp
  refine ⟨?_, ?_, Nat.le_of_eq (Nat.zero_add _)⟩
  · change Replay hands _ _ (policy', (m'' :: left).reverse ++ rest)
    rw [hmembers]
    exact .cons (touch_active rfl hsettle rest) (.cons (touch_active rfl hjudge rest) (.nil _))
  · refine accepts_cons.2 ⟨_, if_pos rfl, accepts_cons.2 ⟨_, if_pos rfl, ?_⟩⟩
    have hlength : (left.reverse ++ m :: rest).length = ((m'' :: left).reverse ++ rest).length := by
      simp
    rw [cursor_eq]
    change Accepts _ (.idle (cursorAt (left.reverse ++ m :: rest).length (left.length + 1))) [] _
    rw [hlength]
    exact .nil _ _

theorem ends_leave_course (hands : Hands σ) :
    (leave hands.settle).Ends (⟨left, m :: rest, policy, closed⟩ : Chain P σ) fun _ d =>
      d.ahead = rest ∧
        ∃ log, Course hands ⟨left, m :: rest, policy, closed⟩ log d ∧ Clean log := by
  rw [ends_leave_cons]
  refine ⟨rfl, _, course_left ⟨rfl, rfl⟩ ⟨rfl, rfl⟩, ?_⟩
  intro i fault hmem
  simp at hmem

/-- A member that was at its end when it was used is left. -/
theorem ends_leave_used {answer : Except Fault Unit} (huse : hands.Uses m answer m')
    (hend : ∀ fault, answer = .error fault → fault = .endOfStream) :
    (leave hands.settle).Ends (⟨left, m' :: rest, policy, closed⟩ : Chain P σ) fun _ d =>
      d.ahead = rest ∧
        ∃ log, Course hands ⟨left, m :: rest, policy, closed⟩ log d ∧ Clean log := by
  refine (ends_leave_course hands).mono ?_
  intro moved d hends
  obtain ⟨hrest, log, hlog, hclean⟩ := hends
  exact ⟨hrest, _, (course_used huse).trans hlog, (clean_used hend).append hclean⟩

omit [ClosePolicy P σ] in
/-- A fault of the active member that is answered is heeded. -/
theorem heeds_used (answer : Except Fault α) :
    Heeds answer [.used left.length (answer.map fun _ => ())]
      (⟨left, m :: rest, policy, closed⟩ : Chain P σ) := by
  intro i fault hmem _
  cases answer with
  | error other =>
    cases List.mem_singleton.1 hmem
    exact ⟨rfl, rfl⟩
  | ok a => cases List.mem_singleton.1 hmem

/-! ### Data operations -/

/-- An operation on the active member only. -/
theorem conducts_onActive {x : Action σ α}
    (hx : ∀ m, x.Ends m fun answer m' => hands.Uses m (answer.map fun _ => ()) m') :
    Conducts hands id (onActive x : Action (Chain P σ) α) := by
  intro c
  rcases c with ⟨left, _ | ⟨m, rest⟩, policy, closed⟩
  · exact ⟨[], .refl hands _, .of_clean clean_nil _ _⟩
  · rw [ends_onActive_cons]
    refine (hx m).mono ?_
    intro answer m' huse
    exact ⟨_, course_used huse, heeds_used answer⟩

/-- The members are asked in turn, and one that is at its end is left. -/
theorem conducts_pull {x : Action σ α}
    (hx : ∀ m, x.Ends m fun answer m' => hands.Uses m (answer.map fun _ => ()) m') :
    Conducts hands id (pull hands.settle x : Action (Chain P σ) α) := by
  intro c
  generalize hahead : c.ahead = ahead
  induction ahead generalizing c with
  | nil =>
    rcases c with ⟨left, ahead, policy, closed⟩
    obtain rfl : ahead = [] := hahead
    rw [ends_pull_nil]
    exact ⟨[], .refl hands _, .of_clean clean_nil _ _⟩
  | cons m rest ih =>
    rcases c with ⟨left, ahead, policy, closed⟩
    obtain rfl : ahead = m :: rest := hahead
    rw [ends_pull_cons]
    refine (hx m).mono ?_
    intro answer m' huse
    refine ⟨fun _ => ⟨_, course_used huse, heeds_used answer⟩, ?_⟩
    rintro rfl
    refine (ends_leave_used huse fun fault h => (Except.error.inj h).symm).mono ?_
    intro moved d hends
    obtain ⟨hrest, log, hlog, hclean⟩ := hends
    cases moved with
    | error fault => exact ⟨log, hlog, .of_clean hclean _ _⟩
    | ok _ =>
      refine (ih d hrest).mono ?_
      intro answer e hends
      obtain ⟨more, hmore, hheeds⟩ := hends
      exact ⟨log ++ more, hlog.trans hmore, .append hclean hheeds⟩

/-- The members do what they can in turn, and one that comes short is left. -/
theorem conducts_spread {bulk : Action (σ × Region) Unit}
    (hbulk : ∀ m r, bulk.Ends (m, r) fun answer p =>
      hands.Uses m (answer.map fun _ => ()) p.1) :
    Conducts hands Prod.fst (spread hands.settle bulk : Action (Chain P σ × Region) Unit) := by
  intro final
  obtain ⟨c, r⟩ := final
  generalize hahead : c.ahead = ahead
  induction ahead generalizing c r with
  | nil =>
    rcases c with ⟨left, ahead, policy, closed⟩
    obtain rfl : ahead = [] := hahead
    rw [ends_spread_nil]
    exact ⟨[], .refl hands _, .of_clean clean_nil _ _⟩
  | cons m rest ih =>
    rcases c with ⟨left, ahead, policy, closed⟩
    obtain rfl : ahead = m :: rest := hahead
    rw [ends_spread_cons]
    by_cases hroom : r.remaining = 0
    · rw [if_pos hroom]
      exact ⟨[], .refl hands _, .of_clean clean_nil _ _⟩
    rw [if_neg hroom]
    refine (hbulk m r).mono ?_
    intro answer final huse
    obtain ⟨m', q⟩ := final
    rcases answer with fault | _
    · exact ⟨_, course_used huse, heeds_used (.error fault : Except Fault Unit)⟩
    by_cases hfull : q.remaining = 0
    · simp only [hfull, if_true]
      exact ⟨_, course_used huse, heeds_used (.ok () : Except Fault Unit)⟩
    simp only [hfull, if_false]
    refine (ends_leave_used huse fun fault h => nomatch h).mono ?_
    intro moved d hends
    obtain ⟨hrest, log, hlog, hclean⟩ := hends
    cases moved with
    | error fault => exact ⟨log, hlog, .of_clean hclean _ _⟩
    | ok _ =>
      refine (ih d q hrest).mono ?_
      intro answer final hends
      obtain ⟨more, hmore, hheeds⟩ := hends
      exact ⟨log ++ more, hlog.trans hmore, .append hclean hheeds⟩

/-! ### Closing -/

/-- Members are left one after the other, whatever fails on the way. -/
theorem ends_leaveEach_course (hands : Hands σ) (first : Option Fault) (c : Chain P σ) :
    (leaveEach hands.settle c.ahead.length first).Ends c fun answer d =>
      (∃ first', answer = .ok first') ∧ d.ahead = [] ∧ ∃ log, Course hands c log d ∧ Clean log := by
  generalize hahead : c.ahead = ahead
  induction ahead generalizing c first with
  | nil => exact ⟨⟨first, rfl⟩, hahead, [], .refl hands c, clean_nil⟩
  | cons m rest ih =>
    rcases c with ⟨left, ahead, policy, closed⟩
    obtain rfl : ahead = m :: rest := hahead
    rw [List.length_cons, ends_leaveEach_succ]
    refine (ends_leave_course hands).mono ?_
    intro moved d hends
    obtain ⟨hrest, log, hlog, hclean⟩ := hends
    have hgo : ∀ first', (leaveEach hands.settle rest.length first').Ends d fun answer e =>
        (∃ first, answer = .ok first) ∧ e.ahead = [] ∧
          ∃ log, Course hands ⟨left, m :: rest, policy, closed⟩ log e ∧ Clean log := by
      intro first'
      refine (ih first' d hrest).mono ?_
      intro answer e hends
      obtain ⟨hanswer, hahead, more, hmore, hclean'⟩ := hends
      exact ⟨hanswer, hahead, log ++ more, hlog.trans hmore, hclean.append hclean'⟩
    cases moved with
    | error fault => exact hgo _
    | ok _ => exact hgo _

/-- The last member of all is closed. -/
theorem replay_shut {last last' : σ} {earlier : List σ} {answer : Except Fault Unit}
    (h : Results hands.close last answer last') :
    Replay hands [.shut earlier.length answer] (policy, (last :: earlier).reverse ++ [])
      (policy, (last' :: earlier).reverse ++ []) := by
  have hmembers (m : σ) : (m :: earlier).reverse ++ [] = earlier.reverse ++ [m] := by simp
  have hshut : (Contact.shut earlier.length answer).Effect hands (policy, last) (policy, last') :=
    ⟨rfl, h⟩
  rw [hmembers, hmembers]
  exact .cons (touch_active rfl hshut []) (.nil _)

/-- Once no member is ahead, the last one of all is closed, and no other. -/
theorem ends_closeLast_course (hands : Hands σ) {c : Chain P σ} (hahead : c.ahead = []) :
    (closeLast hands.close).Ends c fun _ d =>
      d.closed = c.closed ∧ ∃ log, Replay hands log (c.policy, c.members) (d.policy, d.members) ∧
        Accepts c.members.length (.idle c.cursor) log (.idle d.cursor) ∧
        log.countP Contact.isShut ≤ 1 ∧ Clean log := by
  rcases c with ⟨left, ahead, policy, closed⟩
  obtain rfl : ahead = [] := hahead
  rw [ends_closeLast]
  cases left with
  | nil => exact ⟨rfl, [], .nil _, .nil _ _, Nat.zero_le _, clean_nil⟩
  | cons last earlier =>
    refine Ends.mono
      (Q := fun answer last' => Results hands.close last (answer.map fun _ => ()) last')
      ⟨rfl, rfl⟩ ?_
    intro answer last' hresults
    refine ⟨rfl, [.shut earlier.length (answer.map fun _ => ())], replay_shut hresults, ?_,
      Nat.le_refl 1, ?_⟩
    · refine accepts_cons.2 ⟨_, if_pos ?_, .nil _ _⟩
      simp [members]
    · intro i fault hmem
      simp at hmem

/-- A chain is closed by leaving all members and closing the last one. -/
theorem conducts_finish (hands : Hands σ) :
    Conducts hands id (finish hands.settle hands.close : Action (Chain P σ) Unit) := by
  intro c
  rw [ends_finish]
  by_cases hclosed : c.closed = true
  · rw [if_pos hclosed]
    exact ⟨[], .refl hands _, .of_clean clean_nil _ _⟩
  rw [if_neg hclosed]
  refine (ends_leaveEach_course hands none { c with closed := true }).mono ?_
  intro answer d hends
  obtain ⟨⟨first, rfl⟩, hahead, log, hlog, hclean⟩ := hends
  have hlast :
      (closeLast hands.close).Ends d fun _ e => ∃ log, Course hands c log e ∧ Clean log := by
    refine (ends_closeLast_course hands hahead).mono ?_
    intro got e hends
    obtain ⟨hflag, more, hreplay, haccepts, hcount, hclean'⟩ := hends
    have hlength : d.members.length = c.members.length := hlog.replay.length_eq
    have hshuts := hlog.shuts
    rw [hlength] at haccepts
    refine ⟨log ++ more, ⟨hlog.replay.append hreplay,
      accepts_append.2 ⟨_, hlog.accepts, haccepts⟩, ?_⟩, hclean.append hclean'⟩
    -- the flag went up before anything was closed, so nothing was
    have hflag_le := Bool.toNat_le d.closed
    rw [List.countP_append, hflag]
    simp only [hclosed, Bool.toNat_true, Bool.toNat_false] at hshuts ⊢
    omega
  have hdone : ∀ answer : Except Fault Unit, (closeLast hands.close).Ends d fun _ e =>
      ∃ log, Course hands c log e ∧ Heeds answer log e := by
    intro answer
    refine hlast.mono ?_
    intro got e hends
    obtain ⟨log, hlog, hclean⟩ := hends
    exact ⟨log, hlog, .of_clean hclean _ _⟩
  cases first with
  | some fault => exact hdone (.error fault)
  | none =>
    refine hlast.mono ?_
    intro got e hends
    obtain ⟨log, hlog, hclean⟩ := hends
    exact ⟨log, hlog, .of_clean hclean _ _⟩

end Active

/-! ## All operations of a chain -/

theorem Conducts.fillCompletely {fill : Action (Chain P σ × Region) Unit}
    (h : Conducts hands Prod.fst fill) : Conducts hands Prod.fst (Source.fillCompletely fill) := by
  refine h.bind fun _ => ?_
  refine Conducts.bind (.of_unchanged fun _ => rfl) fun short => ?_
  cases short
  · exact .pure ()
  · exact .of_unchanged fun _ => rfl

theorem Conducts.drainCompletely {drain : Action (Chain P σ × Region) Unit}
    (h : Conducts hands Prod.fst drain) (bytes : Bytes) :
    Conducts hands id (Sink.drainCompletely drain bytes) := by
  refine (Conducts.alongside (h.bind fun _ => ?_) _).bind fun _ => .pure ()
  refine Conducts.bind (.of_unchanged fun _ => rfl) fun short => ?_
  cases short
  · exact .pure ()
  · exact .of_unchanged fun _ => rfl

theorem Conducts.readUnits {next : Action (Chain P σ) UInt8} (h : Conducts hands id next)
    (n : Nat) :
    Conducts hands Prod.fst (Bytewise.readUnits next n) := by
  have htake : ∀ n, Conducts hands id (Bytewise.take next n) := by
    intro n
    induction n with
    | zero => exact .pure []
    | succ n ih => exact h.bind fun b => ih.bind fun rest => .pure (b :: rest)
  have hunit : Conducts hands id (Bytewise.readUnit next) := (htake 2).bind fun _ => .pure _
  refine Conducts.repeatUntil ?_ (.pure ()) n
  exact hunit.onFirst.bind fun unit => (Conducts.onSecond _).bind fun _ => .pure none

theorem Conducts.writeUnits {put : UInt8 → Action (Chain P σ) Unit}
    (h : ∀ v, Conducts hands id (put v)) (units : Array UInt16) :
    Conducts hands id (Bytewise.writeUnits put units) :=
  Conducts.forEach (fun _ => Conducts.forEach h _) _

end Courses

end Chain

open Chain

/-- What a call of a chain does to the member in use. -/
def SourceCall.Uses [Source σ] : SourceCall → σ → Except Fault Unit → σ → Prop
  | readU8 | readUnits _ _ => Results (Source.readU8 : Action σ UInt8)
  | readBytes _ | fill _ => fun m answer m' =>
    ∃ r q, Results (Source.fill : Action (σ × Region) Unit) (m, r) answer (m', q)
  | close => fun _ _ _ => False

/-- What a call of a chain does to the member in use. -/
def SinkCall.Uses [Sink σ] : SinkCall → σ → Except Fault Unit → σ → Prop
  | writeU8 v => Results (Sink.writeU8 v : Action σ Unit)
  | writeUnits _ => fun m answer m' => ∃ v, Results (Sink.writeU8 v : Action σ Unit) m answer m'
  | writeBytes _ | drain _ => fun m answer m' =>
    ∃ r q, Results (Sink.drain : Action (σ × Region) Unit) (m, r) answer (m', q)
  | flush => Results (Sink.flush : Action σ Unit)
  | close => fun _ _ _ => False

/-- What a chain of sources does to its members during a call. -/
def SourceCall.hands [Source σ] (call : SourceCall) : Hands σ :=
  ⟨call.Uses, pure (), Closeable.close⟩

/-- What a chain of sinks does to its members during a call. -/
def SinkCall.hands [Sink σ] (call : SinkCall) : Hands σ :=
  ⟨call.Uses, Sink.flush, Closeable.close⟩

theorem SourceCall.conducts [Source σ] [ClosePolicy P σ] (call : SourceCall) :
    Conducts call.hands id (call.perform : Action (Chain P σ) Unit) := by
  cases call with
  | readU8 => exact Conducts.bind (conducts_pull fun m => ⟨rfl, rfl⟩) fun _ => .pure ()
  | readBytes region =>
    refine (Conducts.alongside (Conducts.fillCompletely ?_) region).bind fun _ => .pure ()
    exact conducts_spread fun m r => ⟨r, _, rfl, rfl⟩
  | readUnits n inHand =>
    refine (Conducts.alongside (Conducts.readUnits ?_ n) inHand).bind fun _ => .pure ()
    exact conducts_pull fun m => ⟨rfl, rfl⟩
  | fill region =>
    refine (Conducts.alongside ?_ region).bind fun _ => .pure ()
    exact conducts_spread fun m r => ⟨r, _, rfl, rfl⟩
  | close => exact conducts_finish _

theorem SinkCall.conducts [Sink σ] [ClosePolicy P σ] (call : SinkCall) :
    Conducts call.hands id (call.perform : Action (Chain P σ) Unit) := by
  cases call with
  | writeU8 v => exact conducts_pull fun m => ⟨rfl, rfl⟩
  | writeBytes bytes =>
    refine Conducts.drainCompletely ?_ bytes
    exact conducts_spread fun m r => ⟨r, _, rfl, rfl⟩
  | writeUnits units =>
    refine Conducts.writeUnits (fun v => ?_) units
    exact conducts_pull fun m => ⟨v, rfl, rfl⟩
  | drain region =>
    refine (Conducts.alongside ?_ region).bind fun _ => .pure ()
    exact conducts_spread fun m r => ⟨r, _, rfl, rfl⟩
  | flush =>
    refine Conducts.bind (.of_unchanged fun _ => rfl) fun exhausted => ?_
    cases exhausted
    · exact conducts_onActive fun m => ⟨rfl, rfl⟩
    · exact .pure ()
  | close => exact conducts_finish _

end ByteFlow
