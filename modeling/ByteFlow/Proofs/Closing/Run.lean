import ByteFlow.Proofs.Closing.Data
import ByteFlow.Scripted.Policy

/-!
# Runs of a closing stream

A closing stream is used, closed and used again, in any order.  The first close runs the policy, and
no other one does; what the policy answers is the flag from then on.  As long as the flag is down
the wrapper does what the stream under it does, and once it is up that stream is not reached any
more.

## Main definitions

* `Closing.Guards` — the data operations of the wrapper are those of the stream under it.
* `Closing.after` — the wrapper after some uses of it.
* `Closing.Conforms` — what holds of it then.
* `Counted P` — a policy that counts how often it is run.
* `Closing.runs_conform` — every run of a closing source or sink conforms.
-/

namespace ByteFlow

open ByteFlow.Action

variable {P Q O σ τ ρ α : Type}

/-! ## One operation of a closing stream -/

namespace Closing

/-- The wrapper stands over the stream, with its flag down. -/
def Over (policy : P) (applied : Bool) (s : σ) (c : Closing P σ) : Prop :=
  c = ⟨s, policy, applied, false⟩

theorem alike_whenOpen (policy : P) (applied : Bool) (x : Action σ α) :
    Alike (Over policy applied) x (whenOpen x) := by
  rintro s c rfl
  exact ⟨rfl, rfl, rfl⟩

theorem alike_whenOpenWith (policy : P) (applied : Bool) (x : Action (σ × ρ) α) :
    Alike (Beside (Over policy applied)) x (whenOpenWith x) := by
  rintro ⟨s, a⟩ ⟨c, b⟩ ⟨rfl, rfl⟩
  exact ⟨rfl, rfl, rfl, rfl⟩

theorem idle_whenOpen {c : Closing P σ} (h : c.closed = true) (x : Action σ α) :
    Idle (whenOpen x) c (.error .closed) := by
  rcases c with ⟨inner, policy, applied, closed⟩
  obtain rfl : closed = true := h
  rfl

theorem idle_whenOpenWith {c : Closing P σ} (h : c.closed = true) (x : Action (σ × ρ) α) (a : ρ) :
    Idle (whenOpenWith x) (c, a) (.error .closed) := by
  rcases c with ⟨inner, policy, applied, closed⟩
  obtain rfl : closed = true := h
  rfl

theorem source_twins [Source σ] [ClosePolicy P σ] (policy : P) (applied : Bool) :
    Source.Twins (Over policy applied : σ → Closing P σ → Prop) where
  readU8 := alike_whenOpen policy applied _
  readBytes := alike_whenOpenWith policy applied _
  readUnits _ := alike_whenOpenWith policy applied _
  fill := alike_whenOpenWith policy applied _

theorem sink_twins [Sink σ] [ClosePolicy P σ] (policy : P) (applied : Bool) :
    Sink.Twins (Over policy applied : σ → Closing P σ → Prop) where
  writeU8 _ := alike_whenOpen policy applied _
  flush := alike_whenOpen policy applied _
  writeBytes _ := alike_whenOpen policy applied _
  writeUnits _ := alike_whenOpen policy applied _
  drain := alike_whenOpenWith policy applied _

theorem source_shut [Source σ] [ClosePolicy P σ] {c : Closing P σ} (h : c.closed = true) :
    Source.Shut c where
  readU8 := idle_whenOpen h _
  readBytes r := idle_whenOpenWith h _ r
  readUnits _ units := idle_whenOpenWith h _ units
  fill r := idle_whenOpenWith h _ r

theorem sink_shut [Sink σ] [ClosePolicy P σ] {c : Closing P σ} (h : c.closed = true) :
    Sink.Shut c where
  writeU8 _ := idle_whenOpen h _
  flush := idle_whenOpen h _
  writeBytes _ := idle_whenOpen h _
  writeUnits _ := idle_whenOpen h _
  drain r := idle_whenOpenWith h _ r

/-! ## Runs -/

/-- A use of a stream with data operations of type `O`. -/
inductive Use (O : Type) where
  | data (op : O)
  | close

/-- The data operations of the wrapper are those of the stream under it, guarded by the flag, and
closing it may run the policy. -/
structure Guards [ClosePolicy P σ] [Closeable (Closing P σ)] (inner : O → Action σ ρ)
    (outer : O → Action (Closing P σ) ρ) (refused : O → ρ) : Prop where
  through : ∀ (op : O) (c : Closing P σ), c.closed = false →
    (outer op).run c = ((inner op).run c.inner).mapState fun s => { c with inner := s }
  refuses : ∀ (op : O) (c : Closing P σ), c.closed = true → Idle (outer op) c (.ok (refused op))
  close_eq : (Closeable.close : Action (Closing P σ) Unit) = shut

/-- Operations that are alike with the flag down reach the stream under the wrapper. -/
theorem run_eq_of_alike {x : Action σ α} {y : Action (Closing P σ) α} {c : Closing P σ}
    (hc : c.closed = false) (h : Alike (Over c.policy c.applied) x y) :
    y.run c = (x.run c.inner).mapState fun s => { c with inner := s } := by
  rcases c with ⟨s, policy, applied, closed⟩
  obtain rfl : closed = false := hc
  obtain ⟨hanswer, hevents, hstate⟩ := h s ⟨s, policy, applied, false⟩ rfl
  rcases hx : x.run s with ⟨answer, s', log⟩
  rcases hy : y.run ⟨s, policy, applied, false⟩ with ⟨answer', c', log'⟩
  rw [hx, hy] at hanswer hevents hstate
  obtain rfl : answer = answer' := hanswer
  obtain rfl : log = log' := hevents
  obtain rfl : c' = ⟨s', policy, applied, false⟩ := hstate
  rfl

theorem guards_source [Source σ] [ClosePolicy P σ] :
    Guards (P := P) (σ := σ) Fetch.perform Fetch.perform Fetch.refused where
  through op _ hc := run_eq_of_alike hc ((source_twins _ _).perform op)
  refuses op _ hc := (source_shut hc).perform op
  close_eq := rfl

theorem guards_sink [Sink σ] [ClosePolicy P σ] :
    Guards (P := P) (σ := σ) Submit.perform Submit.perform Submit.refused where
  through op _ hc := run_eq_of_alike hc ((sink_twins _ _).perform op)
  refuses op _ hc := (sink_shut hc).perform op
  close_eq := rfl

section Runs

/-- The stream after one use. -/
def Use.apply [Closeable τ] (perform : O → Action τ ρ) (t : τ) : Use O → τ
  | .data op => ((perform op).run t).state
  | .close => ((Closeable.close : Action τ Unit).run t).state

/-- The stream after some uses, one after the other, whatever they answer. -/
def after [Closeable τ] (perform : O → Action τ ρ) (t : τ) (uses : List (Use O)) : τ :=
  uses.foldl (Use.apply perform) t

theorem after_append [Closeable τ] (perform : O → Action τ ρ) (t : τ)
    (before later : List (Use O)) :
    after perform t (before ++ later) = after perform (after perform t before) later :=
  List.foldl_append ..

variable [ClosePolicy P σ] [Closeable (Closing P σ)]

/-- What holds of a wrapper that was made of `s` and `policy`, after some uses of it. -/
structure Conforms (inner : O → Action σ ρ) (outer : O → Action (Closing P σ) ρ)
    (refused : O → ρ) (policy : P) (s : σ) (uses : List (Use O)) (c : Closing P σ) : Prop where
  /-- Before it is closed for the first time the policy is untouched and the flag is down. -/
  fresh : .close ∉ uses → c = .new policy c.inner
  /-- Closing it for the first time runs the policy on the stream under it.  What the policy says
  is the flag; a fault of the policy is the answer, and leaves the flag down. -/
  first : .close ∉ uses →
    (ClosePolicy.onClose : Action (P × σ) Bool).Ends (policy, c.inner) fun verdict p =>
      (Closeable.close : Action (Closing P σ) Unit).Ends c fun answer d =>
        answer = verdict.map (fun _ => ()) ∧ d.inner = p.2 ∧ d.policy = p.1 ∧
          (d.closed = true ↔ verdict = .ok true)
  /-- From then on the policy and the flag stay as they were left by that. -/
  settled : ∀ before later, uses = before ++ .close :: later → .close ∉ before →
    c.policy = (after outer (.new policy s) (before ++ [.close])).policy ∧
      c.closed = (after outer (.new policy s) (before ++ [.close])).closed
  /-- Closing it again does nothing and succeeds. -/
  again : .close ∈ uses → Idle (Closeable.close : Action (Closing P σ) Unit) c (.ok ())
  /-- With the flag down, the data operations are those of the stream under it. -/
  through : c.closed = false → ∀ op : O,
    (outer op).run c = ((inner op).run c.inner).mapState fun s => { c with inner := s }
  /-- With the flag up, they are refused, and do nothing. -/
  refuses : c.closed = true → ∀ op : O, Idle (outer op) c (.ok (refused op))

variable {inner : O → Action σ ρ} {outer : O → Action (Closing P σ) ρ} {refused : O → ρ}
  {c : Closing P σ} {uses : List (Use O)}

omit [Closeable (Closing P σ)] in
theorem idle_shut (h : c.applied = true) : Idle (shut : Action (Closing P σ) Unit) c (.ok ()) := by
  rcases c with ⟨s, policy, applied, closed⟩
  obtain rfl : applied = true := h
  rfl

omit [Closeable (Closing P σ)] in
/-- After closing there is nothing left to do for closing again. -/
theorem applied_shut (c : Closing P σ) :
    (shut : Action (Closing P σ) Unit).Ends c fun _ d => d.applied = true := by
  rw [ends_shut]
  by_cases happlied : c.applied = true
  · rwa [if_pos happlied]
  · rw [if_neg happlied, Ends]
    rcases (ClosePolicy.onClose : Action (P × σ) Bool).run (c.policy, c.inner) with ⟨_ | _, _, _⟩
    · rfl
    · rfl

omit [Closeable (Closing P σ)] in
/-- The first close does what the policy does. -/
theorem ends_shut_new (policy : P) (s : σ) :
    (ClosePolicy.onClose : Action (P × σ) Bool).Ends (policy, s) fun verdict p =>
      (shut : Action (Closing P σ) Unit).Ends (.new policy s) fun answer d =>
        answer = verdict.map (fun _ => ()) ∧ d.inner = p.2 ∧ d.policy = p.1 ∧
          (d.closed = true ↔ verdict = .ok true) := by
  have hnew : ¬(new policy s).applied = true := Bool.false_ne_true
  rw [Ends, ends_shut, if_neg hnew]
  simp only [new, Ends]
  rcases (ClosePolicy.onClose : Action (P × σ) Bool).run (policy, s) with ⟨fault | closed, p, log⟩
  · simp
  · simp

namespace Guards

/-- A data operation touches the stream under the wrapper only. -/
theorem exists_inner (h : Guards inner outer refused) (op : O) (c : Closing P σ) :
    ∃ s, Use.apply outer c (.data op) = { c with inner := s } := by
  rw [Use.apply]
  rcases c with ⟨s, policy, applied, closed⟩
  cases closed with
  | false =>
    rw [h.through op _ rfl]
    exact ⟨_, rfl⟩
  | true =>
    rw [h.refuses op _ rfl]
    exact ⟨s, rfl⟩

/-- Without a close only the stream under the wrapper is touched. -/
theorem after_new (h : Guards inner outer refused) (policy : P) (s : σ) (huses : .close ∉ uses) :
    after outer (.new policy s) uses = .new policy (after outer (.new policy s) uses).inner := by
  suffices hexists : ∃ t, after outer (.new policy s) uses = .new policy t by
    obtain ⟨t, ht⟩ := hexists
    rw [ht]
    rfl
  induction uses generalizing s with
  | nil => exact ⟨s, rfl⟩
  | cons use others ih =>
    obtain ⟨huse, hothers⟩ := not_or.1 (mt List.mem_cons.2 huses)
    cases use with
    | close => exact absurd rfl huse
    | data op =>
      obtain ⟨t, ht⟩ := h.exists_inner op (.new policy s)
      rw [after, List.foldl_cons, ht]
      exact ih t hothers

/-- Once the policy was run, nothing changes it or the flag any more. -/
theorem after_of_applied (h : Guards inner outer refused) (hc : c.applied = true)
    (uses : List (Use O)) :
    (after outer c uses).applied = true ∧ (after outer c uses).policy = c.policy ∧
      (after outer c uses).closed = c.closed := by
  induction uses generalizing c with
  | nil => exact ⟨hc, rfl, rfl⟩
  | cons use others ih =>
    cases use with
    | close =>
      have hclose : Use.apply outer c .close = c := by
        rw [Use.apply, h.close_eq, idle_shut hc]
      rw [after, List.foldl_cons, hclose]
      exact ih hc
    | data op =>
      obtain ⟨t, ht⟩ := h.exists_inner op c
      rw [after, List.foldl_cons, ht]
      exact ih (c := { c with inner := t }) hc

/-- After a close the policy was run. -/
theorem applied_after_close (h : Guards inner outer refused) (c : Closing P σ)
    (before : List (Use O)) : (after outer c (before ++ [.close])).applied = true := by
  rw [after_append]
  change (Use.apply outer (after outer c before) .close).applied = true
  rw [Use.apply, h.close_eq]
  exact applied_shut _

/-- Whatever is done to a closing stream, it conforms. -/
theorem conforms (h : Guards inner outer refused) (policy : P) (s : σ) (uses : List (Use O)) :
    Conforms inner outer refused policy s uses (after outer (.new policy s) uses) where
  fresh := h.after_new policy s
  first huses := by
    rw [h.after_new policy s huses, h.close_eq]
    exact ends_shut_new policy _
  settled before later huses _ := by
    have hlater := h.after_of_applied (h.applied_after_close (.new policy s) before) later
    rw [← after_append, List.append_assoc, List.singleton_append, ← huses] at hlater
    exact hlater.2
  again huses := by
    obtain ⟨before, later, rfl, -⟩ := List.eq_append_cons_of_mem huses
    rw [h.close_eq, ← List.singleton_append, ← List.append_assoc, after_append]
    exact idle_shut (h.after_of_applied (h.applied_after_close _ before) later).1
  through hc op := h.through op _ hc
  refuses hc op := h.refuses op _ hc

end Guards

end Runs

/-! ## Counting the runs of the policy -/

end Closing

/-- A policy, and how often it was run. -/
structure Counted (P : Type) where
  policy : P
  runs : Nat

instance [ClosePolicy P σ] : ClosePolicy (Counted P) σ where
  onClose := .of fun (⟨policy, runs⟩, s) =>
    (ClosePolicy.onClose.run (policy, s)).mapState fun (policy, s) => (⟨policy, runs + 1⟩, s)

namespace Closing

/-- The first close runs the policy, and nothing else does. -/
theorem Guards.runs_after [ClosePolicy P σ] [Closeable (Closing (Counted P) σ)]
    {inner : O → Action σ ρ} {outer : O → Action (Closing (Counted P) σ) ρ} {refused : O → ρ}
    (h : Guards inner outer refused) (policy : P) (s : σ) (uses : List (Use O)) :
    (.close ∉ uses → (after outer (.new ⟨policy, 0⟩ s) uses).policy.runs = 0) ∧
      (.close ∈ uses → (after outer (.new ⟨policy, 0⟩ s) uses).policy.runs = 1) := by
  constructor
  · intro huses
    rw [h.after_new _ s huses]
    rfl
  · intro huses
    obtain ⟨before, later, rfl, hbefore⟩ := List.eq_append_cons_of_mem huses
    rw [((h.conforms ⟨policy, 0⟩ s _).settled before later rfl hbefore).1, after_append,
      h.after_new _ s hbefore]
    generalize (after outer (.new ⟨policy, 0⟩ s) before).inner = t
    change (Use.apply outer (.new ⟨policy, 0⟩ t) .close).policy.runs = 1
    rw [Use.apply, h.close_eq]
    have hfirst := ends_shut_new (⟨policy, 0⟩ : Counted P) t
    exact congrArg Counted.runs hfirst.2.2.1

/-- Use, close and use a source or a sink with a close policy as you like.  Before the first close
the policy is untouched and the flag is down.  The first close runs the policy once: its fault is
the answer, and otherwise its verdict becomes the flag.  After that neither changes any more, no
close does anything, and the policy is not run again.  Whenever the flag is down, a data operation
or a flush is that of the stream under the wrapper, with the same answer and the same effect;
whenever it is up, the operation is refused as closed and leaves the stream and whatever it was
handed as they were.  A sequence that is too long to be written is refused as such, closed or
not. -/
theorem runs_conform [Source σ] [ClosePolicy P σ] [Sink τ] [ClosePolicy Q τ] :
    (∀ (policy : P) (s : σ) (uses : List (Use Fetch)),
      Conforms Fetch.perform Fetch.perform Fetch.refused policy s uses
        (after Fetch.perform (.new policy s) uses)) ∧
    (∀ (policy : P) (s : σ) (uses : List (Use Fetch)),
      (.close ∉ uses → (after Fetch.perform (new (Counted.mk policy 0) s) uses).policy.runs = 0) ∧
        (.close ∈ uses →
          (after Fetch.perform (new (Counted.mk policy 0) s) uses).policy.runs = 1)) ∧
    (∀ (policy : Q) (t : τ) (uses : List (Use Submit)),
      Conforms Submit.perform Submit.perform Submit.refused policy t uses
        (after Submit.perform (.new policy t) uses)) ∧
    (∀ (policy : Q) (t : τ) (uses : List (Use Submit)),
      (.close ∉ uses → (after Submit.perform (new (Counted.mk policy 0) t) uses).policy.runs = 0) ∧
        (.close ∈ uses →
          (after Submit.perform (new (Counted.mk policy 0) t) uses).policy.runs = 1)) ∧
    ∀ v : Value, v.Fits → (Submit.value v).refused = .value (.error .closed) := by
  refine ⟨guards_source.conforms, guards_source.runs_after, guards_sink.conforms,
    guards_sink.runs_after, fun v hv => ?_⟩
  rw [Submit.refused, Value.refusal_of_fits hv]

/-- A policy that writes to the sink and then fails leaves it open, and is not tried again. -/
theorem runs_conform_of_fault :
    let policy : ScriptedPolicy :=
      { script := #[{ write := some (Bytes.ofList [7]), answer := .error .closed }] }
    let uses : List (Use Submit) :=
      [.data (.value (.scalar .u8 (1 : UInt8))), .close, .data (.value (.scalar .u8 (2 : UInt8)))]
    let c : Closing ScriptedPolicy GrowingSink := after Submit.perform (.new policy {}) uses
    let d : Closing (Counted ScriptedPolicy) GrowingSink :=
      after Submit.perform (.new ⟨policy, 0⟩ {}) uses
    c.closed = false ∧ c.inner.bytes.list = [1, 7, 2] ∧
      Idle (Closeable.close : Action (Closing ScriptedPolicy GrowingSink) Unit) c (.ok ()) ∧
      d.policy.runs = 1 := by
  intro policy uses c d
  obtain ⟨-, -, hsink, hruns, -⟩ := runs_conform (P := ScriptedPolicy) (Q := ScriptedPolicy)
    (σ := MemorySource) (τ := GrowingSink)
  have huses : .close ∈ uses := List.mem_cons_of_mem _ List.mem_cons_self
  exact ⟨by decide +kernel, by decide +kernel, (hsink policy {} uses).again huses,
    (hruns policy {} uses).2 huses⟩

end Closing

end ByteFlow
