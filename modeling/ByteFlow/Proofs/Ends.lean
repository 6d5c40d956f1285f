import ByteFlow.Action
import Mathlib.Control.Monad.Basic

/-!
# How an operation ends

Most statements about an operation are about its answer and the state it leaves,
and not about what it traced on the way.  `Action.Ends` says that both are as a
predicate wants them, and the rules below take an operation apart step by step.
Answers of type `Except` can be compared, so what a run on fixed streams answers is decidable.

## Main definitions

* `Action.Ends x s Q` — started in `s`, the operation `x` ends as `Q` says.
* `Action.Ends.bind`, `Action.ends_bind` — one step, and then the others.
* `Action.ends_repeatUntil_succ`, `Action.ends_forEach_cons` — one turn of a loop.
-/

namespace ByteFlow.Action

variable {σ τ α β : Type}

/-- Started in `s`, the operation ends with an answer and a state as `Q` says. -/
def Ends (x : Action σ α) (s : σ) (Q : Except Fault α → σ → Prop) : Prop :=
  Q (x.run s).answer (x.run s).state

theorem Ends.mono {x : Action σ α} {s : σ} {Q R : Except Fault α → σ → Prop}
    (h : x.Ends s Q) (hQR : ∀ answer t, Q answer t → R answer t) : x.Ends s R :=
  hQR _ _ h

/-- What holds however it ends. -/
theorem Ends.of_forall {x : Action σ α} {s : σ} {Q : Except Fault α → σ → Prop}
    (h : ∀ answer t, Q answer t) : x.Ends s Q :=
  h _ _

/-- The answer is known, so it is the final state that has to be looked at. -/
theorem Ends.of_answer {x : Action σ α} {s : σ} {answer : Except Fault α} {R : σ → Prop}
    {Q : Except Fault α → σ → Prop} (h : x.Ends s fun got t => got = answer ∧ R t)
    (hQ : ∀ t, R t → Q answer t) : x.Ends s Q := by
  refine h.mono ?_
  intro got t hends
  obtain ⟨rfl, ht⟩ := hends
  exact hQ t ht

theorem Ends.and {x : Action σ α} {s : σ} {Q R : Except Fault α → σ → Prop} (hQ : x.Ends s Q)
    (hR : x.Ends s R) : x.Ends s fun answer t => Q answer t ∧ R answer t :=
  ⟨hQ, hR⟩

theorem ends_congr {x : Action σ α} {s : σ} {Q R : Except Fault α → σ → Prop}
    (h : ∀ answer t, Q answer t ↔ R answer t) : x.Ends s Q ↔ x.Ends s R :=
  h _ _

/-- It is enough that the predicates agree on the ways it can end. -/
theorem Ends.congr_of {x : Action σ α} {s : σ} {P Q R : Except Fault α → σ → Prop}
    (h : x.Ends s P) (hQR : ∀ answer t, P answer t → (Q answer t ↔ R answer t)) :
    x.Ends s Q ↔ x.Ends s R :=
  hQR _ _ h

@[simp] theorem map_ok (f : α → β) (a : α) : (.ok a : Except Fault α).map f = .ok (f a) := rfl

@[simp] theorem map_error (f : α → β) (fault : Fault) :
    (.error fault : Except Fault α).map f = .error fault := rfl

/-! ## Single steps -/

@[simp] theorem ends_pure (a : α) (s : σ) (Q : Except Fault α → σ → Prop) :
    (pure a : Action σ α).Ends s Q ↔ Q (.ok a) s := Iff.rfl

@[simp] theorem ends_fail (fault : Fault) (s : σ) (Q : Except Fault α → σ → Prop) :
    (fail fault : Action σ α).Ends s Q ↔ Q (.error fault) s := Iff.rfl

@[simp] theorem ends_gets (f : σ → α) (s : σ) (Q : Except Fault α → σ → Prop) :
    (gets f).Ends s Q ↔ Q (.ok (f s)) s := Iff.rfl

@[simp] theorem ends_modify (f : σ → σ) (s : σ) (Q : Except Fault Unit → σ → Prop) :
    (modify f).Ends s Q ↔ Q (.ok ()) (f s) := Iff.rfl

@[simp] theorem ends_attempt (x : Action σ α) (s : σ)
    (Q : Except Fault (Except Fault α) → σ → Prop) :
    (attempt x).Ends s Q ↔ x.Ends s fun answer t => Q (.ok answer) t := Iff.rfl

@[simp] theorem ends_onFirst (x : Action σ α) (p : σ × τ) (Q : Except Fault α → σ × τ → Prop) :
    (onFirst x).Ends p Q ↔ x.Ends p.1 fun answer s => Q answer (s, p.2) := Iff.rfl

@[simp] theorem ends_onSecond (x : Action τ α) (p : σ × τ) (Q : Except Fault α → σ × τ → Prop) :
    (onSecond x).Ends p Q ↔ x.Ends p.2 fun answer t => Q answer (p.1, t) := Iff.rfl

/-- The companion that existed for the duration is part of the answer. -/
@[simp] theorem ends_alongside (t : τ) (x : Action (σ × τ) α) (s : σ)
    (Q : Except Fault (α × τ) → σ → Prop) :
    (alongside t x).Ends s Q ↔
      x.Ends (s, t) fun answer p => Q (answer.map fun a => (a, p.2)) p.1 := by
  simp only [Ends, alongside]
  rcases x.run (s, t) with ⟨_ | _, ⟨_, _⟩, _⟩ <;> rfl

/-! ## Steps in a row -/

/-- One operation and then, unless it failed, a second one. -/
theorem ends_bind (x : Action σ α) (f : α → Action σ β) (s : σ)
    (Q : Except Fault β → σ → Prop) :
    (x >>= f).Ends s Q ↔
      x.Ends s fun answer t =>
        match answer with
        | .ok a => (f a).Ends t Q
        | .error fault => Q (.error fault) t := by
  simp only [Ends, run_bind]
  rcases x.run s with ⟨_ | _, _, _⟩ <;> rfl

/-- What the first operation ends with is what the second one starts from. -/
theorem Ends.bind {x : Action σ α} {f : α → Action σ β} {s : σ} {Q : Except Fault α → σ → Prop}
    {R : Except Fault β → σ → Prop} (hx : x.Ends s Q)
    (hok : ∀ a t, Q (.ok a) t → (f a).Ends t R)
    (herror : ∀ fault t, Q (.error fault) t → R (.error fault) t) : (x >>= f).Ends s R := by
  rw [ends_bind]
  refine hx.mono ?_
  intro answer t h
  cases answer with
  | error fault => exact herror fault t h
  | ok a => exact hok a t h

@[simp] theorem ends_gets_bind (f : σ → β) (g : β → Action σ α) (s : σ)
    (Q : Except Fault α → σ → Prop) :
    (gets f >>= g).Ends s Q ↔ (g (f s)).Ends s Q := by
  simp [Ends]

@[simp] theorem ends_modify_bind (f : σ → σ) (g : Unit → Action σ α) (s : σ)
    (Q : Except Fault α → σ → Prop) :
    (modify f >>= g).Ends s Q ↔ (g ()).Ends (f s) Q := by
  simp [Ends]

@[simp] theorem ends_emit_bind (event : Event) (g : Unit → Action σ α) (s : σ)
    (Q : Except Fault α → σ → Prop) :
    (emit event >>= g).Ends s Q ↔ (g ()).Ends s Q := Iff.rfl

@[simp] theorem ends_attempt_bind (x : Action σ β) (g : Except Fault β → Action σ α) (s : σ)
    (Q : Except Fault α → σ → Prop) :
    (attempt x >>= g).Ends s Q ↔ x.Ends s fun answer t => (g answer).Ends t Q := Iff.rfl

/-- A value made from the answer. -/
@[simp] theorem ends_map (f : α → β) (x : Action σ α) (s : σ) (Q : Except Fault β → σ → Prop) :
    (f <$> x).Ends s Q ↔ x.Ends s fun answer t => Q (answer.map f) t := by
  rw [← bind_pure_comp, ends_bind]
  refine ends_congr fun answer t => ?_
  cases answer <;> rfl

/-! ## Loops -/

theorem ends_repeatUntil_succ (n : Nat) (body : Action σ (Option α)) (otherwise : Action σ α)
    (s : σ) (Q : Except Fault α → σ → Prop) :
    (repeatUntil (n + 1) body otherwise).Ends s Q ↔
      body.Ends s fun answer t =>
        match answer with
        | .ok none => (repeatUntil n body otherwise).Ends t Q
        | .ok (some a) => Q (.ok a) t
        | .error fault => Q (.error fault) t := by
  rw [repeatUntil_succ, ends_bind]
  refine ends_congr fun answer t => ?_
  rcases answer with fault | _ | a <;> rfl

/-- A loop goes on, or ends, where it was if its step changed nothing. -/
theorem Ends.of_unchanged {x : Action σ (Option α)} {loop : Action σ α} {s : σ} {R : σ → Prop}
    (hx : x.Ends s fun _ t => t = s) (hloop : loop.Ends s fun _ t => R t) (hs : R s) :
    x.Ends s fun answer t =>
      match answer with
      | .ok none => loop.Ends t fun _ t => R t
      | .ok (some _) => R t
      | .error _ => R t := by
  refine hx.mono ?_
  intro answer t heq
  subst heq
  rcases answer with fault | _ | a
  · exact hs
  · exact hloop
  · exact hs

theorem ends_forEach_cons (b : β) (rest : List β) (body : β → Action σ Unit) (s : σ)
    (Q : Except Fault Unit → σ → Prop) :
    (forEach (b :: rest) body).Ends s Q ↔
      (body b).Ends s fun answer t =>
        match answer with
        | .ok _ => (forEach rest body).Ends t Q
        | .error fault => Q (.error fault) t := by
  rw [forEach_cons, ends_bind]
  refine ends_congr fun answer t => ?_
  cases answer <;> rfl

end ByteFlow.Action
