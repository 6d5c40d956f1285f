import ByteFlow.Endpoint.Either
import ByteFlow.Endpoint.Memory
import ByteFlow.Proofs.Layer

/-!
# Streams fit for use

A stream is open when it refuses no data operation, and closable when closing it
succeeds.  Both are properties of the state: a wrapper is open when its own flag is
down and the stream under it is open, and a chain when the members ahead of it are.
A chain closes the members that it leaves, so the ones that were left only have to be
closable.

## Main definitions

* `Openness` — which states of a stream are open, and which are closable.
* `LawfulClose` — closing a closable stream succeeds, and may be repeated.
* `Harmless` — policies that succeed on closable streams.
* `Chain.ends_leave_of_isOpen`, `Chain.ends_finish_of_closable` — moving on, and closing.
-/

namespace ByteFlow

open ByteFlow.Action

/-- Which states of a stream are fit for use. -/
class Openness (σ : Type) where
  /-- No data operation is refused. -/
  IsOpen : σ → Prop
  /-- Closing does not fail. -/
  Closable : σ → Prop
  closable : ∀ {s : σ}, IsOpen s → Closable s

export Openness (IsOpen Closable)

/-- Closing succeeds, and may be repeated. -/
class LawfulClose (σ : Type) [Closeable σ] [Openness σ] : Prop where
  ends_close : ∀ {s : σ}, Closable s →
    (Closeable.close : Action σ Unit).Ends s fun answer t => answer = .ok () ∧ Closable t

/-- Policies that do not fail, and leave a stream that can be closed. -/
class Harmless (P σ : Type) [ClosePolicy P σ] [Openness σ] : Prop where
  ends_onClose : ∀ (policy : P) {s : σ}, Closable s →
    (ClosePolicy.onClose : Action (P × σ) Bool).Ends (policy, s) fun answer p =>
      (∃ closed, answer = .ok closed) ∧ Closable p.2

variable {P L σ τ : Type}

/-! ## Which streams are open -/

instance : Openness Empty where
  IsOpen _ := True
  Closable _ := True
  closable := id

instance : Openness MemorySource where
  IsOpen s := s.closed = false
  Closable _ := True
  closable _ := trivial

instance : Openness MemorySink where
  IsOpen s := s.closed = false
  Closable _ := True
  closable _ := trivial

instance : Openness GrowingSink where
  IsOpen s := s.closed = false
  Closable _ := True
  closable _ := trivial

instance [Openness σ] [Openness τ] : Openness (σ ⊕ τ) where
  IsOpen := Sum.elim IsOpen IsOpen
  Closable := Sum.elim Closable Closable
  closable {s} h := by
    cases s with
    | inl s => exact Openness.closable (s := s) h
    | inr s => exact Openness.closable (s := s) h

section Layers

variable [Openness σ]

instance : Openness (Quota σ) where
  IsOpen q := IsOpen q.inner
  Closable q := Closable q.inner
  closable := Openness.closable (σ := σ)

instance : Openness (Traced σ) where
  IsOpen t := IsOpen t.inner
  Closable t := Closable t.inner
  closable := Openness.closable (σ := σ)

instance : Openness (Relay σ) where
  IsOpen t := IsOpen t.inner
  Closable t := Closable t.inner
  closable := Openness.closable (σ := σ)

/-- A policy that was run is not run again, so it does not matter any more what it would
find. -/
instance : Openness (Closing P σ) where
  IsOpen c := c.closed = false ∧ IsOpen c.inner
  Closable c := c.applied = true ∨ Closable c.inner
  closable h := .inr (Openness.closable h.2)

/-- Closing a chain passes over the members ahead with data operations, so these have to
be open. -/
instance : Openness (Chain P σ) where
  IsOpen c := (∀ m ∈ c.left, Closable m) ∧ ∀ m ∈ c.ahead, IsOpen m
  Closable c := c.closed = true ∨ (∀ m ∈ c.left, Closable m) ∧ ∀ m ∈ c.ahead, IsOpen m
  closable := .inr

instance [Openness L] : Openness (Layer P L σ) where
  IsOpen
    | .endpoint s => IsOpen s
    | .quota s => IsOpen s
    | .closing s => IsOpen s
    | .chain s => IsOpen s
    | .traced s => IsOpen s
    | .relay s => IsOpen s
  Closable
    | .endpoint s => Closable s
    | .quota s => Closable s
    | .closing s => Closable s
    | .chain s => Closable s
    | .traced s => Closable s
    | .relay s => Closable s
  closable {s} h := by
    cases s with
    | endpoint s => exact Openness.closable (s := s) h
    | quota s => exact Openness.closable (s := s) h
    | closing s => exact Openness.closable (s := s) h
    | chain s => exact Openness.closable (s := s) h
    | traced s => exact Openness.closable (s := s) h
    | relay s => exact Openness.closable (s := s) h

end Layers

instance Tree.instOpenness [Openness L] : (n : Nat) → Openness (Tree P L n)
  | 0 => inferInstanceAs (Openness Empty)
  | n + 1 =>
    have := instOpenness n
    inferInstanceAs (Openness (Layer P L (Tree P L n)))

/-! ### New streams -/

section Fresh

variable [Openness σ]

@[simp] theorem isOpen_bounded_source [Source σ] (limit : Nat) (s : σ) :
    IsOpen (Source.bounded limit s) ↔ IsOpen s := Iff.rfl

@[simp] theorem isOpen_bounded_sink [Sink σ] (limit : Nat) (s : σ) :
    IsOpen (Sink.bounded limit s) ↔ IsOpen s := Iff.rfl

@[simp] theorem isOpen_traced_source [Source σ] (label : String) (s : σ) :
    IsOpen (Source.traced label s) ↔ IsOpen s := Iff.rfl

@[simp] theorem isOpen_traced_sink [Sink σ] (label : String) (s : σ) :
    IsOpen (Sink.traced label s) ↔ IsOpen s := Iff.rfl

@[simp] theorem isOpen_withPolicy_source [Source σ] (policy : P) (s : σ) :
    IsOpen (Source.withPolicy policy s) ↔ IsOpen s :=
  ⟨And.right, And.intro rfl⟩

@[simp] theorem isOpen_withPolicy_sink [Sink σ] (policy : P) (s : σ) :
    IsOpen (Sink.withPolicy policy s) ↔ IsOpen s :=
  ⟨And.right, And.intro rfl⟩

@[simp] theorem isOpen_relay (s : σ) : IsOpen (Relay.mk s) ↔ IsOpen s := Iff.rfl

@[simp] theorem isOpen_chain_new (policy : P) (members : List σ) :
    IsOpen (Chain.new policy members) ↔ ∀ m ∈ members, IsOpen m := by
  refine ⟨And.right, fun h => ⟨?_, h⟩⟩
  simp [Chain.new]

end Fresh

/-! ## Closing -/

section Closing

variable [Openness σ]

/-- The usual policies close the stream or leave it alone. -/
theorem StandardPolicy.ends_apply_of_closable [Closeable σ] [LawfulClose σ]
    (policy : StandardPolicy) {s : σ} (h : Closable s) :
    (apply : Action (StandardPolicy × σ) Bool).Ends (policy, s) fun answer p =>
      (∃ closed, answer = .ok closed) ∧ Closable p.2 := by
  rw [ends_apply]
  cases policy with
  | close =>
    refine (LawfulClose.ends_close h).of_answer ?_
    intro t ht
    exact ⟨⟨true, rfl⟩, ht⟩
  | leaveOpen => exact ⟨⟨false, rfl⟩, h⟩
  | fence => exact ⟨⟨true, rfl⟩, h⟩

instance [Source σ] [LawfulClose σ] : Harmless StandardPolicy σ where
  ends_onClose := StandardPolicy.ends_apply_of_closable

instance [Sink σ] [LawfulClose σ] : Harmless StandardPolicy σ where
  ends_onClose := StandardPolicy.ends_apply_of_closable

variable [ClosePolicy P σ] [Harmless P σ]

theorem Closing.ends_shut_of_closable {c : Closing P σ} (h : Closable c) :
    (shut : Action (Closing P σ) Unit).Ends c fun answer c => answer = .ok () ∧ Closable c := by
  rw [ends_shut]
  by_cases happlied : c.applied = true
  · rw [if_pos happlied]
    exact ⟨rfl, h⟩
  · rw [if_neg happlied]
    have hinner : Closable c.inner := h.resolve_left happlied
    refine (Harmless.ends_onClose c.policy hinner).mono ?_
    intro answer p hends
    obtain ⟨⟨closed, rfl⟩, -⟩ := hends
    exact ⟨rfl, .inl rfl⟩

namespace Chain

variable {settle close : Action σ Unit} {c : Chain P σ}

/-- Settling an open member succeeds and leaves it open. -/
def Settles (settle : Action σ Unit) : Prop :=
  ∀ m, IsOpen m → settle.Ends m fun answer m => answer = .ok () ∧ IsOpen m

/-- An open chain moves on to the members after the active one. -/
theorem ends_leave_of_isOpen (hsettle : Settles settle) {m : σ} {rest : List σ} (h : IsOpen c)
    (hahead : c.ahead = m :: rest) :
    (leave settle).Ends c fun answer c => answer = .ok () ∧ IsOpen c ∧ c.ahead = rest := by
  rcases c with ⟨left, ahead, policy, closed⟩
  obtain rfl : ahead = m :: rest := hahead
  have hm : IsOpen m := h.2 m List.mem_cons_self
  rw [ends_leave_cons]
  refine (hsettle m hm).of_answer ?_
  intro m hm
  refine (Harmless.ends_onClose policy (Openness.closable hm)).mono ?_
  intro judged final hends
  obtain ⟨policy, m⟩ := final
  obtain ⟨⟨_, rfl⟩, hm⟩ := hends
  have hrest : ∀ k ∈ rest, IsOpen k := (List.forall_mem_cons.1 h.2).2
  exact ⟨rfl, ⟨List.forall_mem_cons.2 ⟨hm, h.1⟩, hrest⟩, rfl⟩

theorem ends_leaveEach_of_isOpen (hsettle : Settles settle) (first : Option Fault)
    (h : IsOpen c) :
    (leaveEach settle c.ahead.length first).Ends c fun answer c =>
      answer = .ok first ∧ IsOpen c := by
  generalize hahead : c.ahead = ahead
  induction ahead generalizing c with
  | nil => exact ⟨rfl, h⟩
  | cons m rest ih =>
    rw [List.length_cons, ends_leaveEach_succ]
    refine (ends_leave_of_isOpen hsettle h hahead).of_answer ?_
    intro c hends
    obtain ⟨hc, hrest⟩ := hends
    exact ih hc hrest

variable [Closeable σ] [LawfulClose σ]

omit [ClosePolicy P σ] [Harmless P σ] in
theorem ends_closeLast_of_isOpen (h : IsOpen c) :
    (closeLast Closeable.close).Ends c fun answer c => answer = .ok () ∧ IsOpen c := by
  rcases c with ⟨_ | ⟨last, earlier⟩, ahead, policy, closed⟩
  · rw [ends_closeLast]
    exact ⟨rfl, h⟩
  · rw [ends_closeLast]
    refine (LawfulClose.ends_close (h.1 last List.mem_cons_self)).of_answer ?_
    intro last hlast
    have hearlier : ∀ k ∈ earlier, Closable k := (List.forall_mem_cons.1 h.1).2
    exact ⟨rfl, List.forall_mem_cons.2 ⟨hlast, hearlier⟩, h.2⟩

/-- A chain that can be closed is closed without a fault. -/
theorem ends_finish_of_closable (hsettle : Settles settle) (h : Closable c) :
    (finish settle Closeable.close).Ends c fun answer c => answer = .ok () ∧ Closable c := by
  rw [ends_finish]
  by_cases hclosed : c.closed = true
  · rw [if_pos hclosed]
    exact ⟨rfl, h⟩
  · rw [if_neg hclosed]
    have hopen : IsOpen c := h.resolve_left hclosed
    refine (ends_leaveEach_of_isOpen (c := { c with closed := true }) hsettle none
      hopen).of_answer ?_
    intro c hc
    refine (ends_closeLast_of_isOpen hc).of_answer ?_
    intro c hc
    exact ⟨rfl, Openness.closable hc⟩

end Chain

end Closing

end ByteFlow
