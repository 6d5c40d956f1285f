import ByteFlow.Proofs.Admission.Layer
import ByteFlow.Proofs.Quota.Stack
import ByteFlow.Scripted.Device

/-!
# Closing through a stack

Wrappers with the usual policies, with quotas, traces and relays between them, stand on each other
over an endpoint.  Closing the outermost one is handed on from wrapper to wrapper as long as the
policies say so.  The first wrapper with another policy ends it: what is under that one is not
reached, and is what it was.

## Main definitions

* `Wrapper P L`, `Closing.wrappers` — the wrappers of a stack, from the outermost one inwards.
* `Wrapper.under` — the stream that a wrapper stands on.
* `reach ws` — how many wrappers hand a close on before the first one that does not.
* `Passed ws ls ws' ls'` — what becomes of wrappers and endpoints when the outermost one is closed.
* `Closing.Unclosed c` — a stack that can be closed, and was not closed at any of its wrappers.
* `Closing.ClosedThrough c d` — the stack before and after it was closed.
* `Closing.closes_through` — closing goes exactly as far as the policies say.
-/

namespace ByteFlow

open ByteFlow.Action

variable {D E P L O ρ : Type} {n : Nat}

/-! ## The wrappers of a stack -/

/-- A wrapper somewhere in a stack, with all that is under it. -/
structure Wrapper (P L : Type) where
  depth : Nat
  stream : Closing P (Tree P L depth)

/-- The stream under a wrapper. -/
def Wrapper.under (w : Wrapper P L) : (depth : Nat) × Tree P L depth := ⟨w.depth, w.stream.inner⟩

/-- The wrappers of a layer and under it, given those under a tree. -/
def Layer.wrappers (below : Tree P L n → List (Wrapper P L)) :
    Layer P L (Tree P L n) → List (Wrapper P L)
  | .endpoint _ => []
  | .quota q => below q.inner
  | .closing c => ⟨n, c⟩ :: below c.inner
  | .chain _ => []
  | .traced t => below t.inner
  | .relay t => below t.inner

/-- The wrappers of a stack, from the outermost one inwards. -/
def Tree.wrappers : {n : Nat} → Tree P L n → List (Wrapper P L)
  | 0, t => Empty.elim t
  | _ + 1, t => Layer.wrappers wrappers t

/-- The wrapper itself, and the wrappers under it. -/
def Closing.wrappers (c : Closing P (Tree P L n)) : List (Wrapper P L) := ⟨n, c⟩ :: c.inner.wrappers

/-- A stack is accepting if its endpoint is, and the flags of its wrappers are down. -/
theorem Tree.accepting_of_standsOn {foot accepting : L → Prop} (hfoot : ∀ l, foot l → accepting l)
    {t : Tree P L n} (ht : t.StandsOn foot) (hflags : ∀ w ∈ t.wrappers, w.stream.closed = false) :
    t.Accepting accepting := by
  induction n with
  | zero => exact Empty.elim t
  | succ n ih =>
    cases t with
    | endpoint s => exact hfoot s ht
    | quota q => exact ih ht hflags
    | closing c =>
      obtain ⟨hc, hunder⟩ := List.forall_mem_cons.1 hflags
      exact ⟨hc, ih ht hunder⟩
    | chain c => exact ht
    | traced t => exact ih ht hflags
    | relay t => exact ih ht hflags

/-- A stack has one endpoint. -/
theorem Tree.leaves_of_standsOn {foot : L → Prop} {t : Tree P L n} (ht : t.StandsOn foot) :
    ∃ leaf, t.leaves = [leaf] ∧ foot leaf := by
  induction n with
  | zero => exact Empty.elim t
  | succ n ih =>
    cases t with
    | endpoint s => exact ⟨s, rfl, ht⟩
    | quota q => exact ih ht
    | closing c => exact ih ht
    | chain c => exact ht.elim
    | traced t => exact ih ht
    | relay t => exact ih ht

/-! ## What a close does to them -/

/-- The wrapper after its policy was run and did not close the stream under it: the flag is up if
the policy is a fence, and the stream is what it was. -/
def Wrapper.judged (w : Wrapper StandardPolicy L) : Wrapper StandardPolicy L :=
  ⟨w.depth, ⟨w.stream.inner, w.stream.policy, true, w.stream.policy = .fence⟩⟩

/-- What becomes of a stream when it is closed. -/
def Closeable.closed {σ : Type} [Closeable σ] (s : σ) : σ :=
  ((Closeable.close : Action σ Unit).run s).state

/-- The wrappers and the endpoints of a stack, before and after the outermost wrapper was closed.  A
wrapper that closes hands it on, and the first one that does not is where it ends. -/
inductive Passed [Closeable L] : List (Wrapper StandardPolicy L) → List L →
    List (Wrapper StandardPolicy L) → List L → Prop
  | foot (ls) : Passed [] ls [] (ls.map Closeable.closed)
  | onward {w w' ws ls ws' ls'} : w.stream.policy = .close → w'.stream.policy = .close →
    w'.stream.closed = true → Passed ws ls ws' ls' → Passed (w :: ws) ls (w' :: ws') ls'
  | halt {w} (ws ls) : w.stream.policy ≠ .close → Passed (w :: ws) ls (w.judged :: ws) ls

/-- How many wrappers hand a close on before the first one that does not. -/
def reach (ws : List (Wrapper StandardPolicy L)) : Nat :=
  ws.findIdx fun w => w.stream.policy ≠ .close

section Reach

variable {w : Wrapper StandardPolicy L} {ws : List (Wrapper StandardPolicy L)}

theorem reach_cons_of_close (h : w.stream.policy = .close) : reach (w :: ws) = reach ws + 1 := by
  simp [reach, List.findIdx_cons, h]

theorem reach_cons_of_ne (h : w.stream.policy ≠ .close) : reach (w :: ws) = 0 := by
  simp [reach, List.findIdx_cons, h]

end Reach

namespace Passed

variable [Closeable L] {ws ws' : List (Wrapper StandardPolicy L)} {ls ls' : List L}

theorem policies (h : Passed ws ls ws' ls') :
    ws'.map (·.stream.policy) = ws.map (·.stream.policy) := by
  induction h with
  | foot => rfl
  | onward hpolicy hpolicy' _ _ ih => simp [hpolicy, hpolicy', ih]
  | halt => rfl

/-- The wrappers that hand the close on count as closed. -/
theorem above (h : Passed ws ls ws' ls') : ∀ w ∈ ws'.take (reach ws), w.stream.closed = true := by
  induction h with
  | foot => simp
  | onward hpolicy _ hclosed _ ih =>
    rw [reach_cons_of_close hpolicy, List.take_succ_cons]
    exact List.forall_mem_cons.2 ⟨hclosed, ih⟩
  | halt ws ls hpolicy => simp [reach_cons_of_ne hpolicy]

/-- The one that does not is judged by its policy. -/
theorem halted (h : Passed ws ls ws' ls') : ws'[reach ws]? = ws[reach ws]?.map Wrapper.judged := by
  induction h with
  | foot => rfl
  | onward hpolicy _ _ _ ih =>
    rw [reach_cons_of_close hpolicy, List.getElem?_cons_succ, List.getElem?_cons_succ, ih]
  | halt ws ls hpolicy => simp [reach_cons_of_ne hpolicy]

/-- The ones under it are not reached. -/
theorem beneath (h : Passed ws ls ws' ls') : ws'.drop (reach ws + 1) = ws.drop (reach ws + 1) := by
  induction h with
  | foot => rfl
  | onward hpolicy _ _ _ ih =>
    rw [reach_cons_of_close hpolicy, List.drop_succ_cons, List.drop_succ_cons, ih]
  | halt ws ls hpolicy => simp [reach_cons_of_ne hpolicy]

/-- The endpoints are closed if all wrappers hand the close on. -/
theorem leaves_eq (h : Passed ws ls ws' ls') :
    ls' = if ∀ w ∈ ws, w.stream.policy = .close then ls.map Closeable.closed else ls := by
  induction h with
  | foot => simp
  | onward hpolicy _ _ _ ih => simpa only [List.forall_mem_cons, hpolicy, true_and] using ih
  | halt ws ls hpolicy => simp [hpolicy]

end Passed

/-! ### Layers -/

section Layers

variable [Closeable L] [Closeable (Tree StandardPolicy L n)]
  [ClosePolicy StandardPolicy (Tree StandardPolicy L n)]
  (hpolicy : (ClosePolicy.onClose : Action (StandardPolicy × Tree StandardPolicy L n) Bool) =
    StandardPolicy.apply)
include hpolicy

/-- A wrapper runs its policy, and what closing does below it is as the policy says. -/
theorem Closing.passed_shut {c : Closing StandardPolicy (Tree StandardPolicy L n)}
    (hc : c.applied = false)
    (hinner : (Closeable.close : Action (Tree StandardPolicy L n) Unit).Ends c.inner
      fun answer t =>
        answer = .ok () ∧ Passed c.inner.wrappers c.inner.leaves t.wrappers t.leaves) :
    (shut : Action (Closing StandardPolicy (Tree StandardPolicy L n)) Unit).Ends c fun answer d =>
      answer = .ok () ∧ Passed c.wrappers c.inner.leaves d.wrappers d.inner.leaves := by
  rcases c with ⟨inner, policy, applied, closed⟩
  obtain rfl : applied = false := hc
  rw [ends_shut, if_neg Bool.false_ne_true, hpolicy, StandardPolicy.ends_apply]
  cases policy with
  | close =>
    refine hinner.of_answer ?_
    intro t ht
    exact ⟨rfl, .onward rfl rfl rfl ht⟩
  | leaveOpen => exact ⟨rfl, .halt _ _ (by simp)⟩
  | fence => exact ⟨rfl, .halt _ _ (by simp)⟩

/-- Other layers hand a close on. -/
theorem Layer.passed_act {foot : L → Prop}
    (hfoot : ∀ l, foot l → ((Closeable.close : Action L Unit).run l).answer = .ok ())
    (h : ∀ t : Tree StandardPolicy L n, t.StandsOn foot →
      (∀ w ∈ t.wrappers, w.stream.applied = false) →
      (Closeable.close : Action (Tree StandardPolicy L n) Unit).Ends t fun answer u =>
        answer = .ok () ∧ Passed t.wrappers t.leaves u.wrappers u.leaves)
    {chain : Action (Chain StandardPolicy (Tree StandardPolicy L n)) Unit}
    {t : Tree StandardPolicy L (n + 1)} (ht : t.StandsOn foot)
    (hfresh : ∀ w ∈ t.wrappers, w.stream.applied = false) :
    (act Closeable.close (Quota.onInner Closeable.close) Closing.shut chain
      (Traced.observed .close Closeable.close) (Relay.pass Closeable.close)).Ends t
      fun answer u => answer = .ok () ∧
        Passed t.wrappers t.leaves (Tree.wrappers (n := n + 1) u) (Tree.leaves (n := n + 1) u) := by
  cases t with
  | endpoint s => exact ⟨hfoot s ht, .foot [s]⟩
  | quota q => exact h q.inner ht hfresh
  | closing c =>
    obtain ⟨hc, hunder⟩ := List.forall_mem_cons.1 hfresh
    exact Closing.passed_shut hpolicy hc (h c.inner ht hunder)
  | chain c => exact ht.elim
  | traced t => exact h t.inner ht hfresh
  | relay t => exact h t.inner ht hfresh

end Layers

/-! ### Stacks -/

namespace Tree

variable {foot : L → Prop}

theorem passed_close_source [Source L]
    (hfoot : ∀ l, foot l → ((Closeable.close : Action L Unit).run l).answer = .ok ())
    {t : Tree StandardPolicy L n} (ht : t.StandsOn foot)
    (hfresh : ∀ w ∈ t.wrappers, w.stream.applied = false) :
    (Closeable.close : Action (Tree StandardPolicy L n) Unit).Ends t fun answer u =>
      answer = .ok () ∧ Passed t.wrappers t.leaves u.wrappers u.leaves := by
  induction n with
  | zero => exact Empty.elim t
  | succ n ih => exact Layer.passed_act rfl hfoot (fun _ => ih) ht hfresh

theorem passed_close_sink [Sink L]
    (hfoot : ∀ l, foot l → ((Closeable.close : Action L Unit).run l).answer = .ok ())
    {t : Tree StandardPolicy L n} (ht : t.StandsOn foot)
    (hfresh : ∀ w ∈ t.wrappers, w.stream.applied = false) :
    (Closeable.close : Action (Tree StandardPolicy L n) Unit).Ends t fun answer u =>
      answer = .ok () ∧ Passed t.wrappers t.leaves u.wrappers u.leaves := by
  induction n with
  | zero => exact Empty.elim t
  | succ n ih => exact Layer.passed_act rfl hfoot (fun _ => ih) ht hfresh

end Tree

/-! ## After a close -/

namespace Closing

section Stacks

variable [Closeable L] [Closedness L]

/-- A stack that can be closed: its endpoint is open and closes without a fault, and no wrapper in
it was closed. -/
structure Unclosed (c : Closing StandardPolicy (Tree StandardPolicy L n)) : Prop where
  standsOn : c.inner.StandsOn fun l =>
    ¬WasClosed l ∧ ((Closeable.close : Action L Unit).run l).answer = .ok ()
  fresh : ∀ w ∈ c.wrappers, w.stream.applied = false ∧ w.stream.closed = false

/-- A stack before and after it was closed. -/
structure ClosedThrough (c d : Closing StandardPolicy (Tree StandardPolicy L n)) : Prop where
  /-- It has the wrappers that it had, with the policies that they had. -/
  policies : d.wrappers.map (·.stream.policy) = c.wrappers.map (·.stream.policy)
  /-- Those before the first one that does not close count as closed. -/
  above : ∀ w ∈ d.wrappers.take (reach c.wrappers), w.stream.closed = true
  /-- The first one that does not close counts as closed if its policy is a fence.  The stream under
  it is what it was, so it does what it would have done without the close. -/
  halted : ∀ w, c.wrappers[reach c.wrappers]? = some w → ∃ w',
    d.wrappers[reach c.wrappers]? = some w' ∧ w'.stream.applied = true ∧
      (w'.stream.closed = true ↔ w.stream.policy = .fence) ∧ w'.under = w.under
  /-- The ones below are what they were, and were not closed. -/
  beneath : d.wrappers.drop (reach c.wrappers + 1) = c.wrappers.drop (reach c.wrappers + 1)
  unused : ∀ w ∈ d.wrappers.drop (reach c.wrappers + 1),
    w.stream.applied = false ∧ w.stream.closed = false
  /-- The endpoint is closed if all policies close, and is what it was otherwise. -/
  foot : ∃ leaf leaf' : L, c.inner.leaves = [leaf] ∧ d.inner.leaves = [leaf'] ∧
    (WasClosed leaf' ↔ ∀ w ∈ c.wrappers, w.stream.policy = .close) ∧
    leaf' = if ∀ w ∈ c.wrappers, w.stream.policy = .close then Closeable.closed leaf else leaf

/-- What a close does to the wrappers and the endpoint of a stack that was not closed. -/
theorem ClosedThrough.of_passed {c d : Closing StandardPolicy (Tree StandardPolicy L n)}
    (hc : c.Unclosed)
    (hclose : ∀ l : L, (Closeable.close : Action L Unit).Ends l fun _ l' => WasClosed l')
    (h : Passed c.wrappers c.inner.leaves d.wrappers d.inner.leaves) : ClosedThrough c d where
  policies := h.policies
  above := h.above
  halted w hw := by
    have hjudged := h.halted
    rw [hw] at hjudged
    exact ⟨w.judged, hjudged, rfl, by simp [Wrapper.judged], rfl⟩
  beneath := h.beneath
  unused := by
    rw [h.beneath]
    exact fun w hw => hc.fresh w (List.mem_of_mem_drop hw)
  foot := by
    obtain ⟨leaf, hleaves, hopen, -⟩ := Tree.leaves_of_standsOn hc.standsOn
    have hleaves' := h.leaves_eq
    rw [hleaves] at hleaves'
    by_cases hall : ∀ w ∈ c.wrappers, w.stream.policy = .close
    · rw [if_pos hall] at hleaves'
      refine ⟨leaf, Closeable.closed leaf, hleaves, hleaves', iff_of_true (hclose leaf) hall, ?_⟩
      rw [if_pos hall]
    · rw [if_neg hall] at hleaves'
      refine ⟨leaf, leaf, hleaves, hleaves', iff_of_false hopen hall, ?_⟩
      rw [if_neg hall]

/-- The outermost wrapper of a stack is closed, and used and closed again. -/
structure ClosesThrough [Closeable (Closing StandardPolicy (Tree StandardPolicy L n))]
    (perform : O → Action (Closing StandardPolicy (Tree StandardPolicy L n)) ρ) (Fits : O → Prop)
    (answer : ρ → Except Fault Unit) (c : Closing StandardPolicy (Tree StandardPolicy L n)) :
    Prop where
  /-- Closing it succeeds. -/
  close_ok : ((Closeable.close : Action (Closing StandardPolicy (Tree StandardPolicy L n)) Unit).run
    c).answer = .ok ()
  /-- It is closed as far as the policies say, and closing it again does not change that. -/
  through : ∀ again : Nat, ClosedThrough c (after perform c (.replicate (again + 1) .close))
  /-- From then on data operations are refused as closed unless its policy leaves it open. -/
  data : ∀ (later : List (Use O)) (op : O), Fits op →
    (perform op).Ends (after perform c (.close :: later)) fun got _ =>
      ∃ r, got = .ok r ∧ (answer r = .error .closed ↔ c.policy ≠ .leaveOpen)

/-- The flags of the wrapper and of those under it are down, and the endpoint is open. -/
def LetsIn (c : Closing StandardPolicy (Tree StandardPolicy L n)) : Prop :=
  Accepting (Tree.Accepting fun l : L => ¬WasClosed l) c

variable [Closeable (Tree StandardPolicy L n)]
  [ClosePolicy StandardPolicy (Tree StandardPolicy L n)]
  {c : Closing StandardPolicy (Tree StandardPolicy L n)}

/-- After the first close the policy tells whether data operations are let in. -/
theorem ends_shut_of_unclosed (hc : c.Unclosed)
    (hpolicy : (ClosePolicy.onClose : Action (StandardPolicy × Tree StandardPolicy L n) Bool) =
      StandardPolicy.apply) :
    (shut : Action (Closing StandardPolicy (Tree StandardPolicy L n)) Unit).Ends c fun got d =>
      got = .ok () →
        (c.policy ≠ .leaveOpen → d.closed = true) ∧ (c.policy = .leaveOpen → LetsIn d) := by
  have haccepting : c.inner.Accepting fun l : L => ¬WasClosed l :=
    Tree.accepting_of_standsOn (fun _ h => h.1) hc.standsOn fun w hw =>
      (hc.fresh w (List.mem_cons_of_mem _ hw)).2
  obtain ⟨happlied, -⟩ := hc.fresh ⟨n, c⟩ List.mem_cons_self
  rcases c with ⟨stream, policy, applied, closed⟩
  obtain rfl : applied = false := happlied
  rw [ends_shut, if_neg Bool.false_ne_true, hpolicy, StandardPolicy.ends_apply]
  cases policy with
  | close =>
    rw [Ends]
    rcases (Closeable.close : Action (Tree StandardPolicy L n) Unit).run stream with ⟨_ | _, _, _⟩
    · simp
    · simp
  | leaveOpen => exact fun _ => ⟨fun h => absurd rfl h, fun _ => ⟨rfl, haccepting⟩⟩
  | fence => simp

variable [Closeable (Closing StandardPolicy (Tree StandardPolicy L n))]
  {inner : O → Action (Tree StandardPolicy L n) ρ}
  {outer : O → Action (Closing StandardPolicy (Tree StandardPolicy L n)) ρ} {refused : O → ρ}
  {answer : ρ → Except Fault Unit}

omit [Closeable (Tree StandardPolicy L n)] [Closeable L] [Closedness L] in
/-- Closing again and again does nothing. -/
theorem Guards.after_replicate_close (h : Guards inner outer refused) (hc : c.applied = true)
    (again : Nat) : after outer c (.replicate again .close) = c := by
  induction again with
  | zero => rfl
  | succ again ih =>
    rw [List.replicate_succ, after, List.foldl_cons, Use.apply, h.close_eq, idle_shut hc]
    exact ih

omit [Closeable (Tree StandardPolicy L n)] [Closeable L] in
/-- Data operations are let in as long as closing has nothing left to do. -/
theorem Guards.letsIn_after (h : Guards inner outer refused)
    (hadmits : ∀ (op : O) {d : Closing StandardPolicy (Tree StandardPolicy L n)}, LetsIn d →
      (outer op).Ends d fun got d' => (∃ r, got = .ok r ∧ Admitted (answer r)) ∧ LetsIn d')
    (hc : c.applied = true) (hin : LetsIn c) (later : List (Use O)) :
    LetsIn (after outer c later) := by
  induction later generalizing c with
  | nil => exact hin
  | cons use others ih =>
    rw [after, List.foldl_cons]
    cases use with
    | close =>
      rw [Use.apply, h.close_eq, idle_shut hc]
      exact ih hc hin
    | data op => exact ih (h.after_of_applied hc [.data op]).1 (hadmits op hin).2

/-- What closing does to the tree under the wrapper decides what it does to the stack. -/
theorem ClosesThrough.of_guards (h : Guards inner outer refused) (hc : c.Unclosed)
    (hpolicy : (ClosePolicy.onClose : Action (StandardPolicy × Tree StandardPolicy L n) Bool) =
      StandardPolicy.apply)
    (hleaf : ∀ l : L, (Closeable.close : Action L Unit).Ends l fun _ l' => WasClosed l')
    (hinner : (Closeable.close : Action (Tree StandardPolicy L n) Unit).Ends c.inner fun got t =>
      got = .ok () ∧ Passed c.inner.wrappers c.inner.leaves t.wrappers t.leaves)
    {Fits : O → Prop} (hrefused : ∀ op, Fits op → answer (refused op) = .error .closed)
    (hadmits : ∀ (op : O) {d : Closing StandardPolicy (Tree StandardPolicy L n)}, LetsIn d →
      (outer op).Ends d fun got d' => (∃ r, got = .ok r ∧ Admitted (answer r)) ∧ LetsIn d') :
    ClosesThrough outer Fits answer c := by
  have happlied : c.applied = false := (hc.fresh ⟨n, c⟩ List.mem_cons_self).1
  obtain ⟨hok, hpassed⟩ := passed_shut hpolicy happlied hinner
  obtain ⟨hup, hdown⟩ := ends_shut_of_unclosed hc hpolicy hok
  have hsettled := applied_shut c
  rw [← h.close_eq] at hok hpassed hup hdown hsettled
  have hsettled : (Closeable.closed c).applied = true := hsettled
  have hstep (uses : List (Use O)) :
      after outer c (.close :: uses) = after outer (Closeable.closed c) uses := rfl
  refine ⟨hok, fun again => ?through, fun later op hfits => ?data⟩
  case through =>
    rw [List.replicate_succ, hstep, h.after_replicate_close hsettled again]
    exact .of_passed hc hleaf hpassed
  case data =>
    rw [hstep]
    by_cases hopen : c.policy = .leaveOpen
    · have hin := h.letsIn_after hadmits hsettled (hdown hopen) later
      refine (hadmits op hin).mono ?_
      rintro got d ⟨⟨r, rfl, hr⟩, -⟩
      exact ⟨r, rfl, iff_of_false (Admitted.ne_closed hr) (not_not_intro hopen)⟩
    · have hclosed := (h.after_of_applied hsettled later).2.2.trans (hup hopen)
      rw [Ends, h.refuses op _ hclosed]
      exact ⟨refused op, rfl, iff_of_true (hrefused op hfits) hopen⟩

end Stacks

/-- Close the outermost of some wrappers with the usual policies, with quotas, traces and relays
between them, over an open endpoint whose own close succeeds.  This succeeds.  Every wrapper before
the first one that does not close counts as closed then.  That one counts as closed if it is a
fence.  The stream under it is not reached, so it is what it was, and so are all the wrappers below
it.  The endpoint is closed if all the policies close.  Closing the outermost wrapper again changes
nothing.  However it is used and closed from then on, its data operations are refused as closed if
its policy does not leave it open, and are let in if it does.  Only a sequence that is too long to
be written at all is refused for that. -/
theorem closes_through [InputDevice D] [OutputDevice E] :
    (∀ c : Closing StandardPolicy (Tree StandardPolicy (SourceEnd D Empty) n), c.Unclosed →
      ClosesThrough Fetch.perform (fun _ => True) Fetched.answer c) ∧
    ∀ c : Closing StandardPolicy (Tree StandardPolicy (SinkEnd E Empty) n), c.Unclosed →
      ClosesThrough Submit.perform Submit.Fits Submitted.answer c := by
  constructor
  · intro c hc
    have hfoot := SourceEnd.admits (D := D) (Source.admits_empty _)
    have hadmits := admits_source (P := StandardPolicy)
      (Tree.admits_source (P := StandardPolicy) hfoot n)
    have hinner := Tree.passed_close_source (fun _ h => h.2) hc.standsOn fun w hw =>
      (hc.fresh w (List.mem_cons_of_mem _ hw)).1
    exact .of_guards guards_source hc rfl SettlingSource.close hinner
      (fun op _ => op.answer_refused) fun op _ hd => hadmits.perform op hd
  · intro c hc
    have hfoot := SinkEnd.admits (D := E) (Sink.admits_empty _)
    have hadmits := admits_sink (P := StandardPolicy)
      (Tree.admits_sink (P := StandardPolicy) hfoot n)
    have hinner := Tree.passed_close_sink (fun _ h => h.2) hc.standsOn fun w hw =>
      (hc.fresh w (List.mem_cons_of_mem _ hw)).1
    exact .of_guards guards_sink hc rfl SettlingSink.close hinner
      (fun op hfits => op.answer_refused hfits) fun op _ hd => hadmits.perform op hd

/-- Of four wrappers the third one is a fence, so that the fourth one and the memory under it are
not reached.  Where both wrappers close, the device under them is flushed and let go of. -/
theorem closes_through_of_fence :
    let T := Tree StandardPolicy (SourceEnd ScriptedInput Empty)
    let U := Tree StandardPolicy (SinkEnd ScriptedOutput Empty)
    let foot : T 1 := Layer.endpoint (.memory { data := Bytes.ofList [1, 2, 3] })
    let fenced : T 5 := Layer.traced
      ⟨Layer.closing (.new .fence (Layer.relay ⟨Layer.closing (.new .close foot)⟩)), "fence"⟩
    let c : Closing StandardPolicy (T 7) :=
      .new .close (Layer.quota ⟨Layer.closing (.new .close fenced), 2⟩)
    let device : ScriptedOutput := ⟨none, [], [], Bytes.ofList [7], ByteArray.empty⟩
    let d : Closing StandardPolicy (U 3) := .new .close
      (Layer.traced ⟨Layer.closing (.new .close (Layer.endpoint (.device { device }))), "log"⟩)
    let closed := after Fetch.perform c [.close]
    c.Unclosed ∧ ClosesThrough Fetch.perform (fun _ => True) Fetched.answer c ∧
      reach c.wrappers = 2 ∧ closed.wrappers.map (·.stream.closed) = [true, true, true, false] ∧
      closed.inner.leaves = c.inner.leaves ∧
      d.Unclosed ∧ ClosesThrough Submit.perform Submit.Fits Submitted.answer d ∧
      reach d.wrappers = 2 ∧ ∃ s : DeviceSink ScriptedOutput,
        (after Submit.perform d [.close]).inner.leaves = [.device s] ∧ s.closed = true ∧
          s.device.flushed.list = [7] := by
  intro T U foot fenced c device d closed
  have hc : c.Unclosed := ⟨⟨Bool.false_ne_true, rfl⟩, by decide⟩
  have hd : d.Unclosed := ⟨⟨Bool.false_ne_true, rfl⟩, by decide⟩
  have hsource := (closes_through (D := ScriptedInput) (E := ScriptedOutput)).1 c hc
  have hsink := (closes_through (D := ScriptedInput) (E := ScriptedOutput)).2 d hd
  exact ⟨hc, hsource, by decide, by decide, rfl, hd, hsink, by decide, _, rfl, rfl, by decide⟩

end Closing

end ByteFlow
