import ByteFlow.Event

/-!
# Stateful operations that may fail

An operation on a stream changes the stream, answers a value or a fault, and may
leave trace events.  The state after it is known whatever the answer is: a
failure does not undo what happened before it.

The events are written and never read, so they cannot influence an answer or a
state; this is so by the type of `Action`, and needs no proof.  The laws at the end
of the file are those of a monad, and one for each way to take a step.

## Main definitions

* `Outcome` — the answer, the state after it, and the events on the way.
* `Action` — an operation, with its monad structure.
* `Action.attempt` — the answer of an operation, a fault included, as a value.
* `Action.onFirst`, `Action.onSecond`, `Action.alongside` — operations on a part of the
  state, and with a part that exists only for their duration.
* `Action.repeatUntil`, `Action.forEach` — loops that run in constant stack.
-/

namespace ByteFlow

/-- What an operation leaves behind. -/
structure Outcome (σ α : Type) where
  /-- The value or the fault. -/
  answer : Except Fault α
  /-- The state afterwards, also after a fault. -/
  state : σ
  /-- The trace, oldest event first. -/
  events : Array Event

/-- An operation on a state of type `σ` that answers an `α`. -/
structure Action (σ α : Type) where
  /-- The operation that a function describes. -/
  of ::
  /-- What the operation does to a state. -/
  run : σ → Outcome σ α

namespace Outcome

variable {σ τ α : Type}

/-- The same outcome seen as one of a larger state. -/
@[inline] def mapState (f : σ → τ) (o : Outcome σ α) : Outcome τ α :=
  ⟨o.answer, f o.state, o.events⟩

/-- The outcome when `log` was traced before it. -/
@[inline] def after (log : Array Event) (o : Outcome σ α) : Outcome σ α :=
  ⟨o.answer, o.state, log ++ o.events⟩

@[simp] theorem after_empty (o : Outcome σ α) : o.after #[] = o := by
  simp [after]

@[simp] theorem after_after (o : Outcome σ α) (log more : Array Event) :
    (o.after more).after log = o.after (log ++ more) := by
  simp [after]

end Outcome

namespace Action

variable {σ τ α β : Type}

/-- Answer a value and change nothing. -/
@[inline] protected def pure (a : α) : Action σ α := .of fun s => ⟨.ok a, s, #[]⟩

/-- Run one operation and, unless it failed, a second one that knows its answer. -/
@[inline] protected def bind (x : Action σ α) (f : α → Action σ β) : Action σ β :=
  .of fun s =>
    match x.run s with
    | ⟨.ok a, t, log⟩ => ((f a).run t).after log
    | ⟨.error fault, t, log⟩ => ⟨.error fault, t, log⟩

instance : Monad (Action σ) where
  pure := Action.pure
  bind := Action.bind

/-- Fail and change nothing. -/
@[inline] def fail (fault : Fault) : Action σ α := .of fun s => ⟨.error fault, s, #[]⟩

/-- Leave a trace. -/
@[inline] def emit (event : Event) : Action σ Unit := .of fun s => ⟨.ok (), s, #[event]⟩

/-- Answer something about the state. -/
@[inline] def gets (f : σ → α) : Action σ α := .of fun s => ⟨.ok (f s), s, #[]⟩

/-- Change the state. -/
@[inline] def modify (f : σ → σ) : Action σ Unit := .of fun s => ⟨.ok (), f s, #[]⟩

/-- Run an operation and answer its answer, be it a value or a fault. -/
@[inline] def attempt (x : Action σ α) : Action σ (Except Fault α) := .of fun s =>
  match x.run s with
  | ⟨answer, t, log⟩ => ⟨.ok answer, t, log⟩

/-! ## Parts of a state -/

/-- An operation on the first component. -/
@[inline] def onFirst (x : Action σ α) : Action (σ × τ) α := .of fun (s, t) =>
  (x.run s).mapState fun s => (s, t)

/-- An operation on the second component. -/
@[inline] def onSecond (x : Action τ α) : Action (σ × τ) α := .of fun (s, t) =>
  (x.run t).mapState fun t => (s, t)

/-- Run an operation with a second component that starts as `t`, and answer what
became of it beside the operation's own answer. -/
@[inline] def alongside (t : τ) (x : Action (σ × τ) α) : Action σ (α × τ) :=
  .of fun s =>
    match x.run (s, t) with
    | ⟨.ok a, (s, t), log⟩ => ⟨.ok (a, t), s, log⟩
    | ⟨.error fault, (s, _), log⟩ => ⟨.error fault, s, log⟩

/-! ## Loops -/

/-- The loop behind `repeatUntil`, with the events so far. -/
def repeatFrom (body : Action σ (Option α)) (otherwise : Action σ α) :
    Nat → σ → Array Event → Outcome σ α
  | 0, s, log => (otherwise.run s).after log
  | n + 1, s, log =>
    match body.run s with
    | ⟨.ok none, t, more⟩ => repeatFrom body otherwise n t (log ++ more)
    | ⟨.ok (some a), t, more⟩ => ⟨.ok a, t, log ++ more⟩
    | ⟨.error fault, t, more⟩ => ⟨.error fault, t, log ++ more⟩

/-- Run `body` until it answers a value, at most `n` times, and `otherwise` if it
never does. -/
def repeatUntil (n : Nat) (body : Action σ (Option α)) (otherwise : Action σ α) : Action σ α :=
  .of fun s => repeatFrom body otherwise n s #[]

/-- The loop behind `forEach`, with the events so far. -/
def forEachFrom (body : β → Action σ Unit) : List β → σ → Array Event → Outcome σ Unit
  | [], s, log => ⟨.ok (), s, log⟩
  | b :: rest, s, log =>
    match (body b).run s with
    | ⟨.ok _, t, more⟩ => forEachFrom body rest t (log ++ more)
    | ⟨.error fault, t, more⟩ => ⟨.error fault, t, log ++ more⟩

/-- Run `body` for each entry in order, up to the first fault. -/
def forEach (entries : List β) (body : β → Action σ Unit) : Action σ Unit :=
  .of fun s => forEachFrom body entries s #[]

/-! ## Laws -/

@[ext] theorem ext {x y : Action σ α} (h : ∀ s, x.run s = y.run s) : x = y := by
  cases x
  cases y
  congr
  funext s
  exact h s

@[simp] theorem run_pure (a : α) (s : σ) : (pure a : Action σ α).run s = ⟨.ok a, s, #[]⟩ := rfl

theorem run_bind (x : Action σ α) (f : α → Action σ β) (s : σ) :
    (x >>= f).run s =
      match x.run s with
      | ⟨.ok a, t, log⟩ => ((f a).run t).after log
      | ⟨.error fault, t, log⟩ => ⟨.error fault, t, log⟩ := rfl

theorem run_bind_of_ok {x : Action σ α} {s t : σ} {a : α} {log : Array Event}
    (h : x.run s = ⟨.ok a, t, log⟩) (f : α → Action σ β) :
    (x >>= f).run s = ((f a).run t).after log := by
  rw [run_bind, h]

theorem run_bind_of_error {x : Action σ α} {s t : σ} {fault : Fault} {log : Array Event}
    (h : x.run s = ⟨.error fault, t, log⟩) (f : α → Action σ β) :
    (x >>= f).run s = ⟨.error fault, t, log⟩ := by
  rw [run_bind, h]

/-- Events come out in the order of the operations. -/
instance : LawfulMonad (Action σ) := LawfulMonad.mk' (Action σ)
  (by
    intro α x
    ext s : 1
    change (x >>= pure).run s = x.run s
    rcases h : x.run s with ⟨_ | _, t, log⟩ <;> simp [run_bind, Outcome.after, h])
  (by
    intro α β a f
    ext s : 1
    simp [run_bind])
  (by
    intro α β γ x f g
    ext s : 1
    rcases h : x.run s with ⟨_ | a, t, log⟩
    · simp [run_bind, h]
    · rcases k : (f a).run t with ⟨_ | _, u, more⟩ <;> simp [run_bind, Outcome.after, h, k])

/-! ### One step at a time -/

@[simp] theorem run_fail (fault : Fault) (s : σ) :
    (fail fault : Action σ α).run s = ⟨.error fault, s, #[]⟩ := rfl

@[simp] theorem fail_bind (fault : Fault) (g : β → Action σ α) :
    (fail fault >>= g) = fail fault := rfl

@[simp] theorem run_gets_bind (f : σ → β) (g : β → Action σ α) (s : σ) :
    (gets f >>= g).run s = (g (f s)).run s := by
  simp [run_bind, gets]

@[simp] theorem run_modify_bind (f : σ → σ) (g : Unit → Action σ α) (s : σ) :
    (modify f >>= g).run s = (g ()).run (f s) := by
  simp [run_bind, modify]

@[simp] theorem run_emit_bind (event : Event) (g : Unit → Action σ α) (s : σ) :
    (emit event >>= g).run s = ((g ()).run s).after #[event] := rfl

@[simp] theorem run_attempt_bind (x : Action σ β) (g : Except Fault β → Action σ α) (s : σ) :
    (attempt x >>= g).run s = ((g (x.run s).answer).run (x.run s).state).after (x.run s).events :=
  rfl

theorem run_onFirst (x : Action σ α) (s : σ) (t : τ) :
    (onFirst x).run (s, t) = (x.run s).mapState fun s => (s, t) := rfl

theorem run_onSecond (x : Action τ α) (s : σ) (t : τ) :
    (onSecond x).run (s, t) = (x.run t).mapState fun t => (s, t) := rfl

/-! ### Loops, unrolled

The loops are defined with an accumulator so that they need no stack.  The
equations below are the ones to reason with. -/

theorem repeatFrom_eq (body : Action σ (Option α)) (otherwise : Action σ α) (n : Nat) (s : σ)
    (log : Array Event) :
    repeatFrom body otherwise n s log = ((repeatUntil n body otherwise).run s).after log := by
  induction n generalizing s log with
  | zero => simp [repeatUntil, repeatFrom]
  | succ n ih =>
    simp only [repeatUntil, repeatFrom]
    split
    · rw [ih, ih _ (#[] ++ _)]
      simp
    · simp [Outcome.after]
    · simp [Outcome.after]

@[simp] theorem repeatUntil_zero (body : Action σ (Option α)) (otherwise : Action σ α) :
    repeatUntil 0 body otherwise = otherwise := by
  ext s : 1
  simp [repeatUntil, repeatFrom]

/-- One turn of the loop, and then the rest of it. -/
theorem repeatUntil_succ (n : Nat) (body : Action σ (Option α)) (otherwise : Action σ α) :
    repeatUntil (n + 1) body otherwise = (do
      match ← body with
      | some a => pure a
      | none => repeatUntil n body otherwise) := by
  ext s : 1
  rcases h : body.run s with ⟨_ | _ | a, t, log⟩
  · rw [run_bind_of_error h]
    simp [repeatUntil, repeatFrom, h]
  · rw [run_bind_of_ok h]
    simp only [repeatUntil, repeatFrom, h, Array.empty_append]
    exact repeatFrom_eq ..
  · rw [run_bind_of_ok h]
    simp [repeatUntil, repeatFrom, h, Outcome.after]

theorem forEachFrom_eq (body : β → Action σ Unit) (entries : List β) (s : σ)
    (log : Array Event) :
    forEachFrom body entries s log = ((forEach entries body).run s).after log := by
  induction entries generalizing s log with
  | nil => simp [forEach, forEachFrom, Outcome.after]
  | cons b rest ih =>
    simp only [forEach, forEachFrom]
    split
    · rw [ih, ih _ (#[] ++ _)]
      simp
    · simp [Outcome.after]

@[simp] theorem forEach_nil (body : β → Action σ Unit) : forEach [] body = pure () := rfl

/-- The first entry, and then the others. -/
theorem forEach_cons (b : β) (rest : List β) (body : β → Action σ Unit) :
    forEach (b :: rest) body = (do body b; forEach rest body) := by
  ext s : 1
  rcases h : (body b).run s with ⟨_ | _, t, log⟩
  · rw [run_bind_of_error h]
    simp [forEach, forEachFrom, h]
  · rw [run_bind_of_ok h]
    simp only [forEach, forEachFrom, h, Array.empty_append]
    exact forEachFrom_eq ..

end Action

end ByteFlow
