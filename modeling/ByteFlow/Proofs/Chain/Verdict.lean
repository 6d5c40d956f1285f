import ByteFlow.Proofs.Chain.Conduct
import ByteFlow.Scripted.Stream

/-!
# The members of a chain in turn

A run of a chain from its first member on holds the course from beginning to end.  At any
moment the policy was run once on each member that was left, in order, and on no other one.

What the policy answers is of no consequence: two policies that do the same, and differ in
their verdict at most, make two chains that cannot be told apart.

## Main definitions

* `Action.Alike R` — operations that answer and trace the same in states related by `R`.
* `Chain.SameButVerdict` — policies that differ in their verdict at most.
* `Chain.InTurn` — the members are used, settled, judged and closed in turn.
* `Chain.in_turn` — this holds of every chain of sources and of every chain of sinks.
-/

namespace ByteFlow

open ByteFlow.Action

variable {P Q σ τ ρ α β κ : Type}

/-! ## Operations in related states -/

namespace Action

/-- In related states both operations answer the same and trace the same, and they leave
related states. -/
def Alike (R : σ → τ → Prop) (x : Action σ α) (y : Action τ α) : Prop :=
  ∀ s t, R s t → (x.run s).answer = (y.run t).answer ∧ (x.run s).events = (y.run t).events ∧
    R (x.run s).state (y.run t).state

/-- Related states, with the same thing beside them. -/
def Beside (R : σ → τ → Prop) (p : σ × ρ) (q : τ × ρ) : Prop := R p.1 q.1 ∧ p.2 = q.2

namespace Alike

variable {R : σ → τ → Prop}

protected theorem pure (a : α) : Alike R (pure a : Action σ α) (pure a) :=
  fun _ _ h => ⟨rfl, rfl, h⟩

theorem fail (fault : Fault) : Alike R (Action.fail fault : Action σ α) (Action.fail fault) :=
  fun _ _ h => ⟨rfl, rfl, h⟩

theorem gets {f : σ → α} {g : τ → α} (h : ∀ s t, R s t → f s = g t) :
    Alike R (Action.gets f) (Action.gets g) := by
  intro s t hst
  exact ⟨congrArg Except.ok (h s t hst), rfl, hst⟩

theorem modify {f : σ → σ} {g : τ → τ} (h : ∀ s t, R s t → R (f s) (g t)) :
    Alike R (Action.modify f) (Action.modify g) :=
  fun s t hst => ⟨rfl, rfl, h s t hst⟩

protected theorem bind {x : Action σ α} {y : Action τ α} {f : α → Action σ β}
    {g : α → Action τ β} (hxy : Alike R x y) (hfg : ∀ a, Alike R (f a) (g a)) :
    Alike R (x >>= f) (y >>= g) := by
  intro s t hst
  obtain ⟨hanswer, hevents, hstate⟩ := hxy s t hst
  rw [run_bind, run_bind]
  rcases hx : x.run s with ⟨fault | a, s', log⟩
  · rcases hy : y.run t with ⟨other | b, t', more⟩
    · simp only [hx, hy] at hanswer hevents hstate
      exact ⟨congrArg Except.error (Except.error.inj hanswer), hevents, hstate⟩
    · simp only [hx, hy, reduceCtorEq] at hanswer
  · rcases hy : y.run t with ⟨other | b, t', more⟩
    · simp only [hx, hy, reduceCtorEq] at hanswer
    · simp only [hx, hy] at hanswer hevents hstate
      cases hanswer
      cases hevents
      obtain ⟨hanswer, hevents, hstate⟩ := hfg a s' t' hstate
      exact ⟨hanswer, congrArg (log ++ ·) hevents, hstate⟩

theorem attempt {x : Action σ α} {y : Action τ α} (h : Alike R x y) :
    Alike R (Action.attempt x) (Action.attempt y) := by
  intro s t hst
  obtain ⟨hanswer, hevents, hstate⟩ := h s t hst
  exact ⟨congrArg Except.ok hanswer, hevents, hstate⟩

theorem repeatUntil {body : Action σ (Option α)} {body' : Action τ (Option α)}
    {otherwise : Action σ α} {otherwise' : Action τ α} (hbody : Alike R body body')
    (hotherwise : Alike R otherwise otherwise') (n : Nat) :
    Alike R (Action.repeatUntil n body otherwise) (Action.repeatUntil n body' otherwise') := by
  induction n with
  | zero =>
    rw [repeatUntil_zero, repeatUntil_zero]
    exact hotherwise
  | succ n ih =>
    rw [repeatUntil_succ, repeatUntil_succ]
    refine hbody.bind fun answer => ?_
    cases answer with
    | none => exact ih
    | some a => exact .pure a

theorem forEach {body : β → Action σ Unit} {body' : β → Action τ Unit}
    (h : ∀ b, Alike R (body b) (body' b)) (entries : List β) :
    Alike R (Action.forEach entries body) (Action.forEach entries body') := by
  induction entries with
  | nil => exact .pure ()
  | cons b rest ih =>
    rw [forEach_cons, forEach_cons]
    exact (h b).bind fun _ => ih

theorem onFirst {x : Action σ α} {y : Action τ α} (h : Alike R x y) :
    Alike (Beside R : σ × ρ → τ × ρ → Prop) (Action.onFirst x) (Action.onFirst y) := by
  intro p q hpq
  obtain ⟨hanswer, hevents, hstate⟩ := h p.1 q.1 hpq.1
  exact ⟨hanswer, hevents, hstate, hpq.2⟩

theorem onSecond (x : Action ρ α) :
    Alike (Beside R : σ × ρ → τ × ρ → Prop) (Action.onSecond x) (Action.onSecond x) := by
  intro p q hpq
  obtain ⟨s, a⟩ := p
  obtain ⟨t, b⟩ := q
  obtain ⟨hst, hab⟩ := hpq
  cases hab
  exact ⟨rfl, rfl, hst, rfl⟩

theorem alongside {x : Action (σ × ρ) α} {y : Action (τ × ρ) α} (h : Alike (Beside R) x y)
    (a : ρ) : Alike R (Action.alongside a x) (Action.alongside a y) := by
  intro s t hst
  obtain ⟨hanswer, hevents, hstate⟩ := h (s, a) (t, a) ⟨hst, rfl⟩
  simp only [Action.alongside]
  rcases hx : x.run (s, a) with ⟨fault | b, ⟨s', a'⟩, log⟩
  · rcases hy : y.run (t, a) with ⟨other | c, ⟨t', a''⟩, more⟩
    · simp only [hx, hy] at hanswer hevents hstate
      exact ⟨congrArg Except.error (Except.error.inj hanswer), hevents, hstate.1⟩
    · simp only [hx, hy, reduceCtorEq] at hanswer
  · rcases hy : y.run (t, a) with ⟨other | c, ⟨t', a''⟩, more⟩
    · simp only [hx, hy, reduceCtorEq] at hanswer
    · simp only [hx, hy] at hanswer hevents hstate
      cases hanswer
      cases hstate.2
      exact ⟨rfl, hevents, hstate.1⟩

end Alike

end Action

namespace Chain

/-! ## Policies that differ in their verdict -/

/-- Related policies do the same to every member, leave the same trace and fail alike, and
are related afterwards.  Only what they answer may differ. -/
def SameButVerdict (σ : Type) [ClosePolicy P σ] [ClosePolicy Q σ] (R : P → Q → Prop) : Prop :=
  ∀ (p : P) (q : Q) (m : σ), R p q →
    let first := (ClosePolicy.onClose : Action (P × σ) Bool).run (p, m)
    let second := (ClosePolicy.onClose : Action (Q × σ) Bool).run (q, m)
    first.answer.map (fun _ => ()) = second.answer.map (fun _ => ()) ∧
      first.events = second.events ∧ R first.state.1 second.state.1 ∧
      first.state.2 = second.state.2

/-- The chains have the same members, and stand at the same one. -/
def Same (R : P → Q → Prop) (c : Chain P σ) (d : Chain Q σ) : Prop :=
  c.left = d.left ∧ c.ahead = d.ahead ∧ R c.policy d.policy ∧ c.closed = d.closed

section Alike

variable {R : P → Q → Prop}

theorem Same.exists_policy {c : Chain P σ} {d : Chain Q σ} (h : Same R c d) :
    ∃ policy', R c.policy policy' ∧ d = ⟨c.left, c.ahead, policy', c.closed⟩ := by
  rcases d with ⟨left', ahead', policy', closed'⟩
  obtain ⟨rfl, rfl, hpolicy, rfl⟩ := h
  exact ⟨policy', hpolicy, rfl⟩

theorem alike_fillCompletely {fill : Action (Chain P σ × Region) Unit}
    {fill' : Action (Chain Q σ × Region) Unit} (h : Alike (Beside (Same R)) fill fill') :
    Alike (Beside (Same R)) (Source.fillCompletely fill) (Source.fillCompletely fill') := by
  refine h.bind fun _ =>
    Alike.bind (.gets fun p q h => congrArg Region.hasRemaining h.2) fun more => ?_
  cases more with
  | false => exact .pure ()
  | true => exact .fail _

theorem alike_drainCompletely {drain : Action (Chain P σ × Region) Unit}
    {drain' : Action (Chain Q σ × Region) Unit} (h : Alike (Beside (Same R)) drain drain')
    (bytes : Bytes) :
    Alike (Same R) (Sink.drainCompletely drain bytes) (Sink.drainCompletely drain' bytes) := by
  refine Alike.bind (Alike.alongside (h.bind fun _ => ?_) _) fun _ => .pure ()
  refine Alike.bind (.gets fun p q h => congrArg Region.hasRemaining h.2) fun more => ?_
  cases more with
  | false => exact .pure ()
  | true => exact .fail _

theorem alike_onActive (x : Action σ α) :
    Alike (Same R) (onActive x : Action (Chain P σ) α) (onActive x) := by
  intro c d hcd
  obtain ⟨policy', hpolicy, rfl⟩ := hcd.exists_policy
  rcases c with ⟨left, ahead, policy, closed⟩
  cases ahead with
  | nil => exact ⟨rfl, rfl, rfl, rfl, hpolicy, rfl⟩
  | cons m rest => exact ⟨rfl, rfl, rfl, rfl, hpolicy, rfl⟩

theorem alike_onActiveWith (x : Action (σ × ρ) α) :
    Alike (Beside (Same R)) (onActiveWith x : Action (Chain P σ × ρ) α) (onActiveWith x) := by
  rintro ⟨c, a⟩ ⟨d, a'⟩ ⟨hcd, rfl⟩
  obtain ⟨policy', hpolicy, rfl⟩ := hcd.exists_policy
  rcases c with ⟨left, ahead, policy, closed⟩
  cases ahead with
  | nil => exact ⟨rfl, rfl, ⟨rfl, rfl, hpolicy, rfl⟩, rfl⟩
  | cons m rest => exact ⟨rfl, rfl, ⟨rfl, rfl, hpolicy, rfl⟩, rfl⟩

theorem alike_closeLast (close : Action σ Unit) :
    Alike (Same R) (closeLast close : Action (Chain P σ) Unit) (closeLast close) := by
  intro c d hcd
  obtain ⟨policy', hpolicy, rfl⟩ := hcd.exists_policy
  rcases c with ⟨left, ahead, policy, closed⟩
  cases left with
  | nil => exact ⟨rfl, rfl, rfl, rfl, hpolicy, rfl⟩
  | cons last earlier => exact ⟨rfl, rfl, rfl, rfl, hpolicy, rfl⟩

variable [ClosePolicy P σ] [ClosePolicy Q σ]

theorem alike_leave (hR : SameButVerdict σ R) (settle : Action σ Unit) :
    Alike (Same R) (leave settle : Action (Chain P σ) Unit) (leave settle) := by
  intro c d hcd
  obtain ⟨policy', hpolicy, rfl⟩ := hcd.exists_policy
  rcases c with ⟨left, ahead, policy, closed⟩
  cases ahead with
  | nil => exact ⟨rfl, rfl, rfl, rfl, hpolicy, rfl⟩
  | cons m rest =>
    obtain ⟨hanswer, hevents, hpolicy, hmember⟩ := hR policy policy' (settle.run m).state hpolicy
    refine ⟨?_, ?_, ?_, rfl, hpolicy, rfl⟩
    · exact congrArg ((settle.run m).answer.bind fun _ => ·) hanswer
    · exact congrArg (_ ++ ·) hevents
    · exact congrArg (· :: left) hmember

theorem alike_pull (hR : SameButVerdict σ R) (settle : Action σ Unit) (x : Action σ α) :
    Alike (Same R) (pull settle x : Action (Chain P σ) α) (pull settle x) := by
  refine Alike.bind (.gets fun c d h => congrArg List.length h.2.1) fun ahead => ?_
  refine .repeatUntil (Alike.bind (alike_onActive x).attempt fun answer => ?_) (.fail _) ahead
  rcases answer with fault | a
  · cases fault with
    | endOfStream => exact (alike_leave hR settle).bind fun _ => .pure none
    | _ => exact .fail _
  · exact .pure (some a)

theorem alike_spread (hR : SameButVerdict σ R) (settle : Action σ Unit)
    (bulk : Action (σ × Region) Unit) :
    Alike (Beside (Same R)) (spread settle bulk : Action (Chain P σ × Region) Unit)
      (spread settle bulk) := by
  have hroom : Alike (Beside (Same R)) (gets fun (p : Chain P σ × Region) => p.2.hasRemaining)
      (gets fun (p : Chain Q σ × Region) => p.2.hasRemaining) :=
    .gets fun p q h => congrArg Region.hasRemaining h.2
  refine Alike.bind (.gets fun p q h => congrArg List.length h.1.2.1) fun ahead => ?_
  refine .repeatUntil (Alike.bind hroom fun more => ?_) (.pure ()) ahead
  cases more with
  | false => exact .pure (some ())
  | true =>
    refine Alike.bind (alike_onActiveWith bulk) fun _ => Alike.bind hroom fun more => ?_
    cases more with
    | false => exact .pure (some ())
    | true => exact (alike_leave hR settle).onFirst.bind fun _ => .pure none

theorem alike_leaveEach (hR : SameButVerdict σ R) (settle : Action σ Unit) (n : Nat)
    (first : Option Fault) :
    Alike (Same R) (leaveEach settle n first : Action (Chain P σ) (Option Fault))
      (leaveEach settle n first) := by
  induction n generalizing first with
  | zero => exact .pure first
  | succ n ih =>
    refine Alike.bind (alike_leave hR settle).attempt fun answer => ?_
    cases answer with
    | ok _ => exact ih first
    | error fault => exact ih _

theorem alike_finish (hR : SameButVerdict σ R) (settle close : Action σ Unit) :
    Alike (Same R) (finish settle close : Action (Chain P σ) Unit) (finish settle close) := by
  refine Alike.bind (.gets fun c d h => h.2.2.2) fun closed => ?_
  cases closed with
  | true => exact .pure ()
  | false =>
    refine Alike.bind (.modify fun c d h => ⟨h.1, h.2.1, h.2.2.1, rfl⟩) fun _ => ?_
    refine Alike.bind (.gets fun c d h => congrArg List.length h.2.1) fun ahead => ?_
    refine Alike.bind (alike_leaveEach hR settle ahead none) fun first => ?_
    refine Alike.bind (alike_closeLast close).attempt fun last => ?_
    cases first with
    | some fault => exact .fail fault
    | none =>
      cases last with
      | ok _ => exact .pure ()
      | error fault => exact .fail fault

end Alike

end Chain

/-! ## Calls -/

section Calls

theorem Action.Alike.take {R : σ → τ → Prop} {next : Action σ UInt8} {next' : Action τ UInt8}
    (h : Alike R next next') (n : Nat) :
    Alike R (Bytewise.take next n) (Bytewise.take next' n) := by
  induction n with
  | zero => exact .pure []
  | succ n ih => exact h.bind fun b => ih.bind fun rest => .pure (b :: rest)

theorem Action.Alike.readUnits {R : σ → τ → Prop} {next : Action σ UInt8} {next' : Action τ UInt8}
    (h : Alike R next next') (n : Nat) :
    Alike (Beside R) (Bytewise.readUnits next n) (Bytewise.readUnits next' n) := by
  have hunit : Alike R (Bytewise.readUnit next) (Bytewise.readUnit next') :=
    (h.take 2).bind fun _ => .pure _
  refine .repeatUntil ?_ (.pure ()) n
  exact hunit.onFirst.bind fun unit => (Alike.onSecond _).bind fun _ => .pure none

theorem Action.Alike.writeUnits {R : σ → τ → Prop} {put : UInt8 → Action σ Unit}
    {put' : UInt8 → Action τ Unit} (h : ∀ v, Alike R (put v) (put' v)) (units : Array UInt16) :
    Alike R (Bytewise.writeUnits put units) (Bytewise.writeUnits put' units) :=
  .forEach (fun _ => .forEach h _) _

theorem Action.Alike.answers {R : σ → τ → Prop} {perform : κ → Action σ Unit}
    {perform' : κ → Action τ Unit} (h : ∀ call, Alike R (perform call) (perform' call))
    (calls : List κ) : Alike R (answers perform calls) (answers perform' calls) := by
  induction calls with
  | nil => exact .pure []
  | cons call others ih =>
    exact (h call).attempt.bind fun answer => ih.bind fun rest => .pure (answer :: rest)

variable [ClosePolicy P σ] [ClosePolicy Q σ] {R : P → Q → Prop}

open Chain

theorem SourceCall.alike [Source σ] (hR : SameButVerdict σ R) (call : SourceCall) :
    Alike (Same R) (call.perform : Action (Chain P σ) Unit) call.perform := by
  cases call with
  | readU8 => exact (alike_pull hR _ _).bind fun _ => .pure ()
  | readBytes region =>
    exact (Alike.alongside (alike_fillCompletely (alike_spread hR _ _)) region).bind
      fun _ => .pure ()
  | readUnits n inHand =>
    exact (Alike.alongside (Alike.readUnits (alike_pull hR _ _) n) inHand).bind fun _ => .pure ()
  | fill region => exact (Alike.alongside (alike_spread hR _ _) region).bind fun _ => .pure ()
  | close => exact alike_finish hR _ _

theorem SinkCall.alike [Sink σ] (hR : SameButVerdict σ R) (call : SinkCall) :
    Alike (Same R) (call.perform : Action (Chain P σ) Unit) call.perform := by
  cases call with
  | writeU8 v => exact alike_pull hR _ _
  | writeBytes bytes => exact alike_drainCompletely (alike_spread hR _ _) bytes
  | writeUnits units => exact Alike.writeUnits (fun v => alike_pull hR _ _) units
  | drain region => exact (Alike.alongside (alike_spread hR _ _) region).bind fun _ => .pure ()
  | flush =>
    refine Alike.bind (.gets fun c d h => congrArg List.isEmpty h.2.1) fun exhausted => ?_
    cases exhausted with
    | false => exact alike_onActive _
    | true => exact .pure ()
  | close => exact alike_finish hR _ _

end Calls

namespace Chain

/-! ## Runs -/

/-- After any run from the first member on, and during it, the members were used, settled,
judged and closed in turn, and so they are by the call after it.  At any moment the policy
was run on the members that were left, once on each, in order. -/
def InTurn [ClosePolicy P σ] (settle close : Action σ Unit)
    (Uses : κ → σ → Except Fault Unit → σ → Prop) (perform : κ → Action (Chain P σ) Unit) : Prop :=
  ∀ (policy : P) (members : List σ) (calls : List κ),
    (answers perform calls).Ends (new policy members) fun _ c =>
      (∃ log,
        Course ⟨fun m answer m' => ∃ call, Uses call m answer m', settle, close⟩
          (new policy members) log c ∧
        ∀ before, before <+: log → ∃ stage,
          Accepts members.length (.idle (cursorAt members.length 0)) before stage ∧
          before.filterMap Contact.judgedMember = List.range (stage.passed members.length)) ∧
      ∀ call, (perform call).Ends c fun answer d =>
        ∃ log, Course ⟨Uses call, settle, close⟩ c log d ∧ Heeds answer log d

section Runs

variable [ClosePolicy P σ] {settle close : Action σ Unit}
  {Uses : κ → σ → Except Fault Unit → σ → Prop} {perform : κ → Action (Chain P σ) Unit}

/-- A run holds the course if every call does. -/
theorem ends_answers_course
    (h : ∀ call, Conducts ⟨Uses call, settle, close⟩ id (perform call)) (calls : List κ)
    (c : Chain P σ) :
    (answers perform calls).Ends c fun _ d => ∃ log,
      Course ⟨fun m answer m' => ∃ call, Uses call m answer m', settle, close⟩ c log d := by
  induction calls generalizing c with
  | nil => exact ⟨[], .refl _ c⟩
  | cons call others ih =>
    rw [ends_answers_cons]
    refine (h call c).mono ?_
    intro answer d hends
    obtain ⟨log, hlog, -⟩ := hends
    refine (ih d).mono ?_
    intro _ e hends
    obtain ⟨more, hmore⟩ := hends
    exact ⟨log ++ more, (hlog.mono fun m answer m' huse => ⟨call, huse⟩).trans hmore⟩

theorem within_cursorAt (total i : Nat) : (Stage.idle (cursorAt total i)).Within total := by
  rw [cursorAt]
  by_cases hi : i < total
  · rw [if_pos hi]
    exact hi
  · rw [if_neg hi]
    trivial

theorem passed_cursorAt_zero (total : Nat) : (Stage.idle (cursorAt total 0)).passed total = 0 := by
  cases total <;> rfl

theorem InTurn.of_conducts (h : ∀ call, Conducts ⟨Uses call, settle, close⟩ id (perform call)) :
    InTurn settle close Uses perform := by
  intro policy members calls
  refine (ends_answers_course h calls (new policy members)).mono ?_
  intro _ c hends
  obtain ⟨log, hlog⟩ := hends
  refine ⟨⟨log, hlog, ?_⟩, fun call => h call c⟩
  intro before hbefore
  have haccepts : Accepts members.length (.idle (cursorAt members.length 0)) log
      (.idle c.cursor) := by
    have hstart : (new policy members).cursor = cursorAt members.length 0 := cursor_eq _
    rw [← hstart]
    exact hlog.accepts
  obtain ⟨stage, hstage⟩ := haccepts.of_prefix hbefore
  refine ⟨stage, hstage, ?_⟩
  rw [(hstage.judged (within_cursorAt ..)).2, passed_cursorAt_zero, Nat.sub_zero,
    List.range_eq_range']

end Runs

/-- The members of a chain are used, settled, judged and closed in turn, and the verdict of
the policy makes no difference. -/
theorem in_turn [Source σ] [Sink τ] [ClosePolicy P σ] [ClosePolicy P τ] [ClosePolicy Q σ]
    [ClosePolicy Q τ] :
    InTurn (P := P) (σ := σ) (pure ()) Closeable.close SourceCall.Uses SourceCall.perform ∧
    InTurn (P := P) (σ := τ) Sink.flush Closeable.close SinkCall.Uses SinkCall.perform ∧
    ∀ R : P → Q → Prop,
      (SameButVerdict σ R → ∀ calls, Alike (Same R)
        (answers SourceCall.perform calls : Action (Chain P σ) _)
        (answers SourceCall.perform calls : Action (Chain Q σ) _)) ∧
      (SameButVerdict τ R → ∀ calls, Alike (Same R)
        (answers SinkCall.perform calls : Action (Chain P τ) _)
        (answers SinkCall.perform calls : Action (Chain Q τ) _)) := by
  refine ⟨.of_conducts SourceCall.conducts, .of_conducts SinkCall.conducts, fun R => ⟨?_, ?_⟩⟩
  · intro hR calls
    exact Alike.answers (SourceCall.alike hR) calls
  · intro hR calls
    exact Alike.answers (SinkCall.alike hR) calls

/-- A policy that leaves its members open and one that fences them differ in their verdict
only, so two chains over sinks that fail cannot be told apart by them. -/
theorem in_turn_of_fence :
    SameButVerdict FaultySink (fun p q : StandardPolicy => p = .leaveOpen ∧ q = .fence) ∧
      Alike (Same fun p q : StandardPolicy => p = .leaveOpen ∧ q = .fence)
        (answers SinkCall.perform [.writeU8 1, .flush, .writeU8 2, .close] :
          Action (Chain StandardPolicy FaultySink) _)
        (answers SinkCall.perform [.writeU8 1, .flush, .writeU8 2, .close] :
          Action (Chain StandardPolicy FaultySink) _) := by
  have hverdict :
      SameButVerdict FaultySink (fun p q : StandardPolicy => p = .leaveOpen ∧ q = .fence) := by
    intro p q m hpq
    obtain ⟨rfl, rfl⟩ := hpq
    exact ⟨rfl, rfl, ⟨rfl, rfl⟩, rfl⟩
  exact ⟨hverdict, ((in_turn (P := StandardPolicy) (Q := StandardPolicy) (σ := FaultySource)
    (τ := FaultySink)).2.2 _).2 hverdict _⟩

end Chain

end ByteFlow
