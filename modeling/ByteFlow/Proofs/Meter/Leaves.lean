import ByteFlow.Proofs.Meter.Faithful

/-!
# The endpoints of a tree

The bytes that go through a tree end in its endpoints, and they do so from left to right:
the members of a chain come one after the other, and under a member it is the same again.
They also go through the quotas above these.  A list with an item for each endpoint says both:
every quota in the tree, wherever it stands, is less by the bytes of the endpoints under it.

## Main definitions

* `Tree.leaves` — the endpoints of a tree from left to right.
* `Share` — an endpoint before and after some bytes went through it.
* `Tree.Itemized t shares u` — the shares of what went through a tree.
* `Covers shares before after` — the shares of endpoints in a row.
* `Tree.itemized_of_moved`, `Tree.shares_of_moved` — whatever went through a tree, endpoint by
  endpoint.
-/

namespace ByteFlow

variable {P L σ τ : Type}

/-- The endpoints under a layer, given the ones under the streams below it. -/
def Layer.leaves (below : σ → List L) : Layer P L σ → List L
  | .endpoint s => [s]
  | .quota s => below s.inner
  | .closing s => below s.inner
  | .chain s => s.members.flatMap below
  | .traced s => below s.inner
  | .relay s => below s.inner

/-- The endpoints of a tree from left to right. -/
def Tree.leaves : {n : Nat} → Tree P L n → List L
  | 0, t => Empty.elim t
  | _ + 1, t => Layer.leaves leaves t

/-- A stream before and after, and the bytes that went through it in between. -/
@[ext] structure Share (σ : Type) where
  before : σ
  bytes : List UInt8
  after : σ

/-- What went through the streams of a row, given what the items of one of them are. -/
inductive Row (below : σ → List (Share L) → σ → Prop) : List σ → List (Share L) → List σ → Prop
  | nil : Row below [] [] []
  | cons {m shares m' rest more rest'} :
    below m shares m' → Row below rest more rest' →
      Row below (m :: rest) (shares ++ more) (m' :: rest')

/-- The items of what went through a layer, given those of the streams below it.  A quota is
less by their bytes; the items of a chain are those of its members in order. -/
def Layer.Itemized [Meter L] (below : σ → List (Share L) → σ → Prop) :
    Layer P L σ → List (Share L) → Layer P L σ → Prop
  | .endpoint s, shares, .endpoint t => ∃ bs, shares = [⟨s, bs, t⟩] ∧ Moved s bs t
  | .quota s, shares, .quota t =>
    below s.inner shares t.inner ∧
      t.remaining + (shares.flatMap Share.bytes).length = s.remaining
  | .closing s, shares, .closing t => below s.inner shares t.inner
  | .chain s, shares, .chain t => Row below s.members shares t.members
  | .traced s, shares, .traced t => below s.inner shares t.inner
  | .relay s, shares, .relay t => below s.inner shares t.inner
  | _, _, _ => False

/-- The items of what went through a tree: one for each endpoint, from left to right. -/
def Tree.Itemized [Meter L] : {n : Nat} → Tree P L n → List (Share L) → Tree P L n → Prop
  | 0, t, _, _ => Empty.elim t
  | _ + 1, t, shares, u => Layer.Itemized Itemized t shares u

/-- The shares are those of the endpoints before and after, and each of them went through. -/
structure Covers [Meter L] (shares : List (Share L)) (before after : List L) : Prop where
  before_eq : shares.map Share.before = before
  after_eq : shares.map Share.after = after
  moved : ∀ share ∈ shares, Moved share.before share.bytes share.after

/-! ## The members of a chain -/

namespace Chain.Parts

variable [Meter σ] {ms ms' ns ns' : List σ} {bs cs : List UInt8}

theorem append (h : Parts ms bs ms') (h' : Parts ns cs ns') :
    Parts (ms ++ ns) (bs ++ cs) (ms' ++ ns') := by
  induction h with
  | nil => exact h'
  | cons hm _ ih =>
    rw [List.append_assoc]
    exact .cons hm ih

theorem of_still (h : List.Forall₂ (fun m m' => Moved m [] m') ms ms') : Parts ms [] ms' := by
  induction h with
  | nil => exact .nil
  | cons hm _ ih => exact .cons_nil hm ih

end Chain.Parts

/-- All members take part in what goes through a chain, those that were left with nothing. -/
theorem Chain.parts_members [Meter σ] {c d : Chain P σ} {bs : List UInt8} (h : Moved c bs d) :
    Parts c.members bs d.members := by
  obtain ⟨still, parted, heq, hstill, hparts⟩ := Trail.parts h
  have hleft : Parts c.left.reverse [] still.reverse :=
    Parts.of_still (List.rel_reverse hstill)
  have hmembers : d.members = still.reverse ++ parted := heq
  rw [hmembers]
  exact hleft.append hparts

/-! ## Every list of bytes can be itemized -/

section Items

variable [Meter σ] {below : σ → List (Share L) → σ → Prop}
  (hbelow : ∀ {s t : σ} {bs : List UInt8}, Moved s bs t →
    ∃ shares, below s shares t ∧ shares.flatMap Share.bytes = bs)
include hbelow

theorem Row.of_parts {ms ms' : List σ} {bs : List UInt8} (h : Chain.Parts ms bs ms') :
    ∃ shares, Row below ms shares ms' ∧ shares.flatMap Share.bytes = bs := by
  induction h with
  | nil => exact ⟨[], .nil, rfl⟩
  | cons hm _ ih =>
    obtain ⟨shares, hshares, rfl⟩ := hbelow hm
    obtain ⟨more, hmore, rfl⟩ := ih
    exact ⟨shares ++ more, .cons hshares hmore, List.flatMap_append⟩

variable [Meter L]

theorem Layer.itemized_of_moved {s t : Layer P L σ} {bs : List UInt8} (h : Moved s bs t) :
    ∃ shares, Itemized below s shares t ∧ shares.flatMap Share.bytes = bs := by
  refine moved_cases
    (motive := fun s t => ∃ shares, Itemized below s shares t ∧ shares.flatMap Share.bytes = bs)
    h ?endpoint ?quota ?closing ?chain ?traced ?relay
  case endpoint => exact fun s t hs => ⟨[⟨s, bs, t⟩], ⟨bs, rfl, hs⟩, List.append_nil bs⟩
  case quota =>
    rintro s t ⟨hs, hcount⟩
    obtain ⟨shares, hshares, rfl⟩ := hbelow hs
    exact ⟨shares, ⟨hshares, hcount⟩, rfl⟩
  case closing => exact fun s t hs => hbelow hs
  case chain => exact fun s t hs => Row.of_parts hbelow (Chain.parts_members hs)
  case traced => exact fun s t hs => hbelow hs
  case relay => exact fun s t hs => hbelow hs

end Items

/-- Whatever went through a tree can be told item by item. -/
theorem Tree.itemized_of_moved [Meter L] {n : Nat} {t u : Tree P L n} {bs : List UInt8}
    (h : Moved t bs u) : ∃ shares, t.Itemized shares u ∧ shares.flatMap Share.bytes = bs := by
  induction n generalizing bs with
  | zero => exact Empty.elim t
  | succ n ih => exact Layer.itemized_of_moved ih h

/-! ## The items are those of the endpoints -/

section Leaves

variable [Meter L] {below : σ → List (Share L) → σ → Prop} {leaves : σ → List L}
  {shares : List (Share L)}

theorem Covers.append {more : List (Share L)} {before after before' after' : List L}
    (h : Covers shares before after) (h' : Covers more before' after') :
    Covers (shares ++ more) (before ++ before') (after ++ after') where
  before_eq := by rw [List.map_append, h.before_eq, h'.before_eq]
  after_eq := by rw [List.map_append, h.after_eq, h'.after_eq]
  moved := List.forall_mem_append.2 ⟨h.moved, h'.moved⟩

variable (hbelow : ∀ s shares t, below s shares t → Covers shares (leaves s) (leaves t))
include hbelow

theorem Row.covers {ms ms' : List σ} (h : Row below ms shares ms') :
    Covers shares (ms.flatMap leaves) (ms'.flatMap leaves) := by
  induction h with
  | nil => exact ⟨rfl, rfl, List.forall_mem_nil _⟩
  | cons hm _ ih => exact (hbelow _ _ _ hm).append ih

theorem Layer.Itemized.covers {s t : Layer P L σ} (h : Itemized below s shares t) :
    Covers shares (s.leaves leaves) (t.leaves leaves) := by
  cases s <;> cases t <;> try exact h.elim
  case endpoint.endpoint =>
    obtain ⟨bs, rfl, hmoved⟩ := h
    exact ⟨rfl, rfl, List.forall_mem_singleton.2 hmoved⟩
  case quota.quota => exact hbelow _ _ _ h.1
  case closing.closing => exact hbelow _ _ _ h
  case chain.chain => exact Row.covers hbelow h
  case traced.traced => exact hbelow _ _ _ h
  case relay.relay => exact hbelow _ _ _ h

end Leaves

/-- The items tell what went through each of the endpoints, from left to right. -/
theorem Tree.Itemized.covers [Meter L] {n : Nat} {t u : Tree P L n} {shares : List (Share L)}
    (h : t.Itemized shares u) : Covers shares t.leaves u.leaves := by
  induction n generalizing shares with
  | zero => exact Empty.elim t
  | succ n ih => exact Layer.Itemized.covers (fun _ _ _ h => ih h) h

/-- Endpoints that remember leave no doubt about their items. -/
theorem Covers.unique [Meter L] [Faithful L] {shares more : List (Share L)}
    {before after : List L} (h : Covers shares before after) (h' : Covers more before after) :
    shares = more := by
  induction shares generalizing more before after with
  | nil =>
    obtain rfl := h.before_eq
    exact (List.map_eq_nil_iff.1 h'.before_eq).symm
  | cons share rest ih =>
    obtain ⟨rfl, rfl, hmoved⟩ := h
    obtain ⟨share', rest', rfl, hbefore, hbefores⟩ := List.map_eq_cons_iff.1 h'.before_eq
    obtain ⟨hafter, hafters⟩ := List.cons.inj h'.after_eq
    obtain ⟨hshare, hrest⟩ := List.forall_mem_cons.1 hmoved
    obtain ⟨hshare', hrest'⟩ := List.forall_mem_cons.1 h'.moved
    rw [hbefore, hafter] at hshare'
    have hbytes : share.bytes = share'.bytes := Faithful.unique hshare hshare'
    have hsame : share = share' := Share.ext hbefore.symm hbytes hafter.symm
    rw [hsame, ih ⟨rfl, rfl, hrest⟩ ⟨hbefores, hafters, hrest'⟩]

/-- The bytes that went through a tree are those that went through its endpoints. -/
theorem Tree.shares_of_moved [Meter L] {n : Nat} {t u : Tree P L n} {bs : List UInt8}
    (h : Moved t bs u) :
    ∃ shares : List (Share L), shares.map Share.before = t.leaves ∧
      shares.map Share.after = u.leaves ∧ shares.flatMap Share.bytes = bs ∧
      ∀ share ∈ shares, Moved share.before share.bytes share.after := by
  obtain ⟨shares, hshares, hbytes⟩ := itemized_of_moved h
  have hcovers := hshares.covers
  exact ⟨shares, hcovers.before_eq, hcovers.after_eq, hbytes, hcovers.moved⟩

end ByteFlow
