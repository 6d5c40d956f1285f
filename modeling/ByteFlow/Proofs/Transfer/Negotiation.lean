import ByteFlow.Proofs.Meter.Leaves

/-!
# What the preference of a tree tells of its endpoints

A chain takes the preferences of its members together in their order, and the rule for two of them
is not symmetric: `any` before `unsupported` comes to `direct`, and the other way round it stays
`any`.  So the preference of a tree depends on its shape.

What it asks for does not.  The preference is `unsupported` if all endpoints say so, and `indirect`
if some endpoint says so, and a transfer looks at nothing else.  Neither of the two depends on how
the endpoints are put together.

## Main definitions

* `Preference.SumsUp` — the preference was made of those, in whatever way.
* `Tree.sumsUp_source`, `Tree.sumsUp_sink` — the preference of a tree was made of its endpoints'.
* `Tree.lift` — the same tree, with room for one more layer.
* `Tree.Rearranged` — chains in the tree were reordered and flattened.
-/

namespace ByteFlow

variable {P L σ τ : Type}

namespace Preference

theorem negotiate_eq_unsupported {p q : Preference} :
    negotiate p q = .unsupported ↔ p = .unsupported ∧ q = .unsupported := by
  cases p <;> cases q <;> decide

theorem negotiate_eq_indirect {p q : Preference} :
    negotiate p q = .indirect ↔ p = .indirect ∨ q = .indirect := by
  cases p <;> cases q <;> decide

/-- The preference tells whether those that it was made of are all `unsupported`, and whether
`indirect` is among them. -/
structure SumsUp (preference : Preference) (parts : List Preference) : Prop where
  unsupported_iff : preference = .unsupported ↔ ∀ p ∈ parts, p = .unsupported
  indirect_iff : preference = .indirect ↔ .indirect ∈ parts

namespace SumsUp

protected theorem nil : SumsUp .unsupported [] := ⟨by simp, by simp⟩

theorem singleton (p : Preference) : SumsUp p [p] := ⟨by simp, by simp [eq_comm]⟩

variable {p q : Preference} {ps qs : List Preference}

theorem negotiate (hp : SumsUp p ps) (hq : SumsUp q qs) :
    SumsUp (Preference.negotiate p q) (ps ++ qs) where
  unsupported_iff := by
    rw [negotiate_eq_unsupported, hp.unsupported_iff, hq.unsupported_iff, List.forall_mem_append]
  indirect_iff := by
    rw [negotiate_eq_indirect, hp.indirect_iff, hq.indirect_iff, List.mem_append]

/-- The members of a chain are taken together one after the other. -/
theorem negotiateAll {ofMember : σ → Preference} {below : σ → List Preference}
    (h : ∀ m, SumsUp (ofMember m) (below m)) (ms : List σ) :
    SumsUp (Preference.negotiateAll (ms.map ofMember)) (ms.flatMap below) := by
  suffices hfrom : ∀ {p ps}, SumsUp p ps →
      SumsUp ((ms.map ofMember).foldl Preference.negotiate p) (ps ++ ms.flatMap below) by
    exact hfrom .nil
  induction ms with
  | nil =>
    intro p ps hp
    rw [List.flatMap_nil, List.append_nil]
    exact hp
  | cons m rest ih =>
    intro p ps hp
    rw [List.flatMap_cons, ← List.append_assoc]
    exact ih (hp.negotiate (h m))

end SumsUp

end Preference

open Preference

/-! ## Trees -/

/-- The preference of a layer, given those of endpoints and of the streams below it. -/
def Layer.preferenceOf (ofLeaf : L → Preference) (ofBelow : σ → Preference) :
    Layer P L σ → Preference
  | .endpoint s => ofLeaf s
  | .quota s => ofBelow s.inner
  | .closing s => ofBelow s.inner
  | .chain s => s.preference ofBelow
  | .traced s => ofBelow s.inner
  | .relay s => ofBelow s.inner

theorem Layer.preference_source [Source L] [Source σ] [ClosePolicy P σ] (s : Layer P L σ) :
    Source.preference s = s.preferenceOf Source.preference Source.preference := by
  cases s <;> rfl

theorem Layer.preference_sink [Sink L] [Sink σ] [ClosePolicy P σ] (s : Layer P L σ) :
    Sink.preference s = s.preferenceOf Sink.preference Sink.preference := by
  cases s <;> rfl

theorem Layer.sumsUp {ofLeaf : L → Preference} {ofBelow : σ → Preference} {leaves : σ → List L}
    (h : ∀ s, SumsUp (ofBelow s) ((leaves s).map ofLeaf)) (s : Layer P L σ) :
    SumsUp (s.preferenceOf ofLeaf ofBelow) ((s.leaves leaves).map ofLeaf) := by
  cases s with
  | endpoint s => exact .singleton _
  | chain s =>
    have hmembers := SumsUp.negotiateAll h s.members
    rwa [← List.map_flatMap] at hmembers
  | quota s => exact h s.inner
  | closing s => exact h s.inner
  | traced s => exact h s.inner
  | relay s => exact h s.inner

namespace Tree

theorem sumsUp_source [Source L] [SourcePolicy P] {n : Nat} (t : Tree P L n) :
    SumsUp (Source.preference t) (t.leaves.map Source.preference) := by
  induction n with
  | zero => exact Empty.elim t
  | succ n ih =>
    have hlayer := Layer.sumsUp ih (show Layer P L (Tree P L n) from t)
    rwa [← Layer.preference_source] at hlayer

theorem sumsUp_sink [Sink L] [SinkPolicy P] {n : Nat} (t : Tree P L n) :
    SumsUp (Sink.preference t) (t.leaves.map Sink.preference) := by
  induction n with
  | zero => exact Empty.elim t
  | succ n ih =>
    have hlayer := Layer.sumsUp ih (show Layer P L (Tree P L n) from t)
    rwa [← Layer.preference_sink] at hlayer

end Tree

/-! ## Other trees with the same endpoints -/

/-- The same layer over other streams. -/
def Layer.map (f : σ → τ) : Layer P L σ → Layer P L τ
  | .endpoint s => .endpoint s
  | .quota s => .quota { s with inner := f s.inner }
  | .closing s => .closing { s with inner := f s.inner }
  | .chain s => .chain { s with left := s.left.map f, ahead := s.ahead.map f }
  | .traced s => .traced { s with inner := f s.inner }
  | .relay s => .relay { s with inner := f s.inner }

theorem Layer.leaves_map {f : σ → τ} {leaves : σ → List L} {leaves' : τ → List L}
    (h : ∀ s, leaves' (f s) = leaves s) (s : Layer P L σ) :
    (s.map f).leaves leaves' = s.leaves leaves := by
  cases s with
  | endpoint s => rfl
  | chain s =>
    change (((s.left.map f).reverse ++ s.ahead.map f).flatMap leaves') = s.members.flatMap leaves
    rw [← List.map_reverse, ← List.map_append, List.flatMap_map]
    exact congrArg (fun g => s.members.flatMap g) (funext h)
  | quota s => exact h s.inner
  | closing s => exact h s.inner
  | traced s => exact h s.inner
  | relay s => exact h s.inner

namespace Tree

/-- The same tree, with room for one more layer. -/
def lift : {n : Nat} → Tree P L n → Tree P L (n + 1)
  | 0, t => Empty.elim t
  | _ + 1, t => Layer.map lift t

@[simp] theorem leaves_lift {n : Nat} (t : Tree P L n) : t.lift.leaves = t.leaves := by
  induction n with
  | zero => exact Empty.elim t
  | succ n ih => exact Layer.leaves_map ih t

/-- A chain of trees. -/
def ofChain {n : Nat} (c : Chain P (Tree P L n)) : Tree P L (n + 1) := Layer.chain c

theorem leaves_ofChain {n : Nat} (c : Chain P (Tree P L n)) :
    (ofChain c).leaves = c.members.flatMap leaves := rfl

/-- The second tree differs from the first one in the order of the members of some chains, in that
chains among them are replaced by their own members, or the other way round, and in what the layers
keep apart from the streams below them. -/
inductive Rearranged : {n : Nat} → Tree P L n → Tree P L n → Prop
  | refl {n} (t : Tree P L n) : Rearranged t t
  | symm {n} {t u : Tree P L n} : Rearranged t u → Rearranged u t
  | trans {n} {t u v : Tree P L n} : Rearranged t u → Rearranged u v → Rearranged t v
  | reorder {n} {c d : Chain P (Tree P L n)} : c.members.Perm d.members →
    Rearranged (ofChain c) (ofChain d)
  | flatten {n} {c d : Chain P (Tree P L (n + 1))} {inner : Chain P (Tree P L n)}
    {before after : List (Tree P L (n + 1))} :
    c.members = before ++ ofChain inner :: after →
    d.members = before ++ inner.members.map lift ++ after →
    Rearranged (ofChain c) (ofChain d)
  | member {n} {c d : Chain P (Tree P L n)} {m m' before after} :
    c.members = before ++ m :: after → d.members = before ++ m' :: after → Rearranged m m' →
    Rearranged (ofChain c) (ofChain d)
  | quota {n} {s t : Quota (Tree P L n)} : Rearranged s.inner t.inner →
    @Rearranged (n + 1) (Layer.quota s) (Layer.quota t)
  | closing {n} {s t : Closing P (Tree P L n)} : Rearranged s.inner t.inner →
    @Rearranged (n + 1) (Layer.closing s) (Layer.closing t)
  | traced {n} {s t : Traced (Tree P L n)} : Rearranged s.inner t.inner →
    @Rearranged (n + 1) (Layer.traced s) (Layer.traced t)
  | relay {n} {s t : Relay (Tree P L n)} : Rearranged s.inner t.inner →
    @Rearranged (n + 1) (Layer.relay s) (Layer.relay t)

/-- All of this leaves the endpoints as they were, in some order. -/
theorem Rearranged.perm {n : Nat} {t u : Tree P L n} (h : Rearranged t u) :
    t.leaves.Perm u.leaves := by
  induction h with
  | refl t => exact .refl _
  | symm _ ih => exact ih.symm
  | trans _ _ ih ih' => exact ih.trans ih'
  | reorder hmembers => exact hmembers.flatMap_right leaves
  | @flatten _ c d inner before after hc hd =>
    have hlift : (inner.members.map lift).flatMap leaves = inner.members.flatMap leaves := by
      simp [List.flatMap_map]
    rw [leaves_ofChain, leaves_ofChain, hc, hd, List.flatMap_append, List.flatMap_cons,
      leaves_ofChain, List.flatMap_append, List.flatMap_append, hlift, List.append_assoc]
  | @member _ c d m m' before after hc hd _ ih =>
    rw [leaves_ofChain, leaves_ofChain, hc, hd, List.flatMap_append, List.flatMap_cons,
      List.flatMap_append, List.flatMap_cons]
    exact (ih.append_right _).append_left _
  | quota _ ih => exact ih
  | closing _ ih => exact ih
  | traced _ ih => exact ih
  | relay _ ih => exact ih

end Tree

end ByteFlow
