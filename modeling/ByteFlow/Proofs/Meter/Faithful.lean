import ByteFlow.Proofs.Meter.Endpoint
import Mathlib.Data.List.Forall2

/-!
# Streams that remember

A stream that keeps what it took leaves no doubt about the bytes that went through it:
there is one list of them between two of its states.  For a chain this is not obvious, as
its members may be passed over and settled at any time, but each of them contributes one
part to the bytes of the chain, and the parts come in the order of the members.

## Main definitions

* `Faithful` — streams for which the bytes between two states are determined.
* `Chain.Parts ms bs ms'` — the parts of the bytes that went through each member.
* `Chain.Trail.parts` — every trail is made of such parts.
-/

namespace ByteFlow

/-- Between two states there is one list of bytes at most. -/
class Faithful (σ : Type) [Meter σ] : Prop where
  unique : ∀ {s t : σ} {bs cs : List UInt8}, Moved s bs t → Moved s cs t → bs = cs

variable {P L σ τ : Type}

/-- The bytes `bs` went through, and nothing else can be said to have. -/
def Exactly [Meter σ] (s : σ) (bs : List UInt8) (t : σ) : Prop :=
  ∀ cs, Moved s cs t ↔ cs = bs

theorem Faithful.exactly [Meter σ] [Faithful σ] {s t : σ} {bs : List UInt8} (h : Moved s bs t) :
    Exactly s bs t := by
  intro cs
  constructor
  · intro hcs
    exact Faithful.unique hcs h
  · intro hcs
    subst hcs
    exact h

/-! ## Streams in memory -/

instance : Faithful Empty where
  unique {s} := nomatch s

instance : Faithful MemorySource where
  unique h h' := List.append_cancel_right (h.2.symm.trans h'.2)

instance : Faithful MemorySink where
  unique h h' := List.append_cancel_left (h.1.symm.trans h'.1)

instance : Faithful GrowingSink where
  unique h h' := List.append_cancel_left (h.symm.trans h')

/-! ## Chains -/

namespace Chain

variable [Meter σ]

/-- Each member contributed its part of the bytes, in the order of the members. -/
inductive Parts : List σ → List UInt8 → List σ → Prop
  | nil : Parts [] [] []
  | cons {m bs m' rest cs rest'} :
    Moved m bs m' → Parts rest cs rest' → Parts (m :: rest) (bs ++ cs) (m' :: rest')

theorem Parts.cons_nil {m m' : σ} {rest rest' : List σ} {bs : List UInt8} (hm : Moved m [] m')
    (h : Parts rest bs rest') : Parts (m :: rest) bs (m' :: rest') := by
  have hcons := Parts.cons hm h
  rwa [List.nil_append] at hcons

theorem Parts.refl (ms : List σ) : Parts ms [] ms := by
  induction ms with
  | nil => exact .nil
  | cons m rest ih => exact .cons_nil (Meter.refl m) ih

theorem Parts.length_eq {ms ms' : List σ} {bs : List UInt8} (h : Parts ms bs ms') :
    ms.length = ms'.length := by
  induction h with
  | nil => rfl
  | cons _ _ ih => rw [List.length_cons, List.length_cons, ih]

theorem Parts.unique [Faithful σ] {ms ms' : List σ} {bs cs : List UInt8} (h : Parts ms bs ms')
    (h' : Parts ms cs ms') : bs = cs := by
  induction h generalizing cs with
  | nil =>
    cases h'
    rfl
  | cons hm _ ih =>
    cases h' with
    | cons hm' hrest' => rw [Faithful.unique hm hm', ih hrest']

/-- The members that were left when the trail begins take no part, and the others take
theirs in order. -/
theorem Trail.parts {left ahead left' ahead' : List σ} {bs : List UInt8}
    (h : Trail left ahead bs left' ahead') :
    ∃ still parted, left'.reverse ++ ahead' = still.reverse ++ parted ∧
      List.Forall₂ (fun m m' => Moved m [] m') left still ∧ Parts ahead bs parted := by
  induction h with
  | refl left ahead =>
    exact ⟨left, ahead, rfl, List.forall₂_same.2 fun m _ => Meter.refl m, .refl ahead⟩
  | active hm _ ih =>
    obtain ⟨still, _, heq, hstill, hparts⟩ := ih
    cases hparts with
    | cons hm' hrest =>
      refine ⟨still, _, heq, hstill, ?_⟩
      rw [← List.append_assoc]
      exact .cons (Meter.trans hm hm') hrest
  | leave _ ih =>
    obtain ⟨_, parted, heq, hstill, hparts⟩ := ih
    cases hstill with
    | cons hm hstill =>
      rw [List.reverse_cons, List.append_assoc] at heq
      exact ⟨_, _, heq, hstill, .cons_nil hm hparts⟩
  | last hm _ ih =>
    obtain ⟨_, parted, heq, hstill, hparts⟩ := ih
    cases hstill with
    | cons hm' hstill => exact ⟨_, parted, heq, .cons (Meter.trans_nil hm hm') hstill, hparts⟩

instance [Faithful σ] : Faithful (Chain P σ) where
  unique h h' := by
    obtain ⟨still, parted, heq, hstill, hparts⟩ := Trail.parts h
    obtain ⟨still', parted', heq', hstill', hparts'⟩ := Trail.parts h'
    have hlength : still.reverse.length = still'.reverse.length := by
      rw [List.length_reverse, List.length_reverse, ← hstill.length_eq, hstill'.length_eq]
    obtain ⟨-, rfl⟩ := List.append_inj (heq.symm.trans heq') hlength
    exact hparts.unique hparts'

end Chain

/-! ## Trees -/

section Layers

variable [Meter σ] [Faithful σ]

instance : Faithful (Quota σ) where
  unique h h' := Faithful.unique h.1 h'.1

instance : Faithful (Traced σ) where
  unique := Faithful.unique (σ := σ)

instance : Faithful (Relay σ) where
  unique := Faithful.unique (σ := σ)

instance : Faithful (Closing P σ) where
  unique := Faithful.unique (σ := σ)

instance [Meter L] [Faithful L] : Faithful (Layer P L σ) where
  unique {s t bs cs} h := by
    refine Layer.moved_cases (motive := fun s t => Moved s cs t → bs = cs) h ?_ ?_ ?_ ?_ ?_ ?_
    · intro s t hs hs'
      exact Faithful.unique (s := s) hs hs'
    · intro s t hs hs'
      exact Faithful.unique (s := s) hs hs'
    · intro s t hs hs'
      exact Faithful.unique (s := s) hs hs'
    · intro s t hs hs'
      exact Faithful.unique (s := s) hs hs'
    · intro s t hs hs'
      exact Faithful.unique (s := s) hs hs'
    · intro s t hs hs'
      exact Faithful.unique (s := s) hs hs'

instance [Meter τ] [Faithful τ] : Faithful (σ ⊕ τ) where
  unique {s t bs cs} h h' := by
    cases s with
    | inl s =>
      cases t with
      | inl t => exact Faithful.unique (s := s) h h'
      | _ => exact h.elim
    | inr s =>
      cases t with
      | inr t => exact Faithful.unique (s := s) h h'
      | _ => exact h.elim

end Layers

instance Tree.instFaithful [Meter L] [Faithful L] : (n : Nat) → Faithful (Tree P L n)
  | 0 => inferInstanceAs (Faithful Empty)
  | n + 1 =>
    have := instFaithful n
    inferInstanceAs (Faithful (Layer P L (Tree P L n)))

end ByteFlow
