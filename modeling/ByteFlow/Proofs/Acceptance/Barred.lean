import ByteFlow.Proofs.Acceptance.Sink
import ByteFlow.Proofs.Keeping

/-!
# Endpoints that no byte reaches any more

A byte that is refused on its way down reaches no endpoint.  It is refused by a quota that is used
up, by a wrapper that was closed, by a chain, for a member that it has left, and by an endpoint that
was closed itself.  None of these is ever taken back: whatever is done to the tree from then on, the
endpoints behind it stay behind it, and take nothing.

To flush and to close reaches them still, but carries no bytes.

## Main definitions

* `Outlet` — an endpoint, and whether it is barred.
* `Layer.outlets`, `Tree.outlets` — the endpoints of a tree, and which of them are barred.
* `Withheld idle before after` — barred endpoints stay barred and take nothing; nor do the others if
  the operation was idle.
* `Sink.Seals`, `Sink.Bars` — endpoints and streams whose operations are like that.
* `Tree.bars` — all trees are like that.
-/

namespace ByteFlow

open ByteFlow.Action

variable {E L P S σ τ ρ α : Type} {idle : Bool}

/-- An endpoint, and whether it is barred. -/
structure Outlet (L : Type) where
  barred : Bool
  sink : L

/-- The endpoint behind something that lets no byte through. -/
def Outlet.bar (o : Outlet L) : Outlet L := { o with barred := true }

/-- Endpoints behind something that may be shut. -/
def Outlet.behind (shut : Prop) [Decidable shut] (outlets : List (Outlet L)) : List (Outlet L) :=
  if shut then outlets.map .bar else outlets

/-! ## Which endpoints are barred -/

/-- A quota is shut when it is used up. -/
def Quota.outlets (below : σ → List (Outlet L)) (q : Quota σ) : List (Outlet L) :=
  Outlet.behind (q.remaining = 0) (below q.inner)

/-- A wrapper is shut when it was closed, and its policy has put the flag up. -/
def Closing.outlets (below : σ → List (Outlet L)) (c : Closing P σ) : List (Outlet L) :=
  Outlet.behind (c.applied = true ∧ c.closed = true) (below c.inner)

/-- A chain is shut for the members that it has left. -/
def Chain.outlets (below : σ → List (Outlet L)) (c : Chain P σ) : List (Outlet L) :=
  (c.left.reverse.flatMap below).map .bar ++ c.ahead.flatMap below

/-- The endpoints under a layer, given which endpoints are sealed themselves and what the ones under
the streams below it are. -/
def Layer.outlets (sealed : L → Bool) (below : σ → List (Outlet L)) :
    Layer P L σ → List (Outlet L)
  | .endpoint s => [⟨sealed s, s⟩]
  | .quota s => s.outlets below
  | .closing s => s.outlets below
  | .chain s => s.outlets below
  | .traced s => below s.inner
  | .relay s => below s.inner

/-- The endpoints of a tree from left to right, and whether they are barred. -/
def Tree.outlets (sealed : L → Bool) : {n : Nat} → Tree P L n → List (Outlet L)
  | 0, t => Empty.elim t
  | _ + 1, t => Layer.outlets sealed (outlets sealed) t

theorem map_sink_bar (outlets : List (Outlet L)) :
    (outlets.map Outlet.bar).map Outlet.sink = outlets.map Outlet.sink :=
  List.map_map

theorem map_sink_behind (shut : Prop) [Decidable shut] (outlets : List (Outlet L)) :
    (Outlet.behind shut outlets).map Outlet.sink = outlets.map Outlet.sink := by
  rw [Outlet.behind]
  split
  · exact map_sink_bar outlets
  · rfl

theorem Layer.map_outlets (sealed : L → Bool) {below : σ → List (Outlet L)} {leaves : σ → List L}
    (h : ∀ s, (below s).map Outlet.sink = leaves s) (s : Layer P L σ) :
    (s.outlets sealed below).map Outlet.sink = s.leaves leaves := by
  cases s with
  | endpoint s => rfl
  | quota q => exact (map_sink_behind (q.remaining = 0) _).trans (h q.inner)
  | closing c => exact (map_sink_behind (c.applied = true ∧ c.closed = true) _).trans (h c.inner)
  | chain c =>
    rw [outlets, Chain.outlets, List.map_append, map_sink_bar, List.map_flatMap, List.map_flatMap,
      Layer.leaves, Chain.members, List.flatMap_append, funext h]
  | traced t => exact h t.inner
  | relay t => exact h t.inner

/-- The outlets of a tree are its endpoints. -/
theorem Tree.map_outlets (sealed : L → Bool) {n : Nat} (t : Tree P L n) :
    (t.outlets sealed).map Outlet.sink = t.leaves := by
  induction n with
  | zero => exact Empty.elim t
  | succ n ih => exact Layer.map_outlets sealed ih t

/-! ## What is withheld -/

/-- An endpoint that is barred stays barred and takes nothing.  If nothing goes on, no endpoint
takes anything. -/
def Outlet.Withholds [Meter L] (idle : Bool) (o o' : Outlet L) : Prop :=
  (o.barred = true → o'.barred = true) ∧
    (idle = true ∨ o.barred = true → Moved o.sink [] o'.sink)

theorem Outlet.withholds_of_open [Meter L] {o o' : Outlet L} (h : o.barred = false) :
    o.Withholds false o' := by
  constructor
  · intro hbar
    exact absurd (h.symm.trans hbar) Bool.false_ne_true
  · rintro (hidle | hbar)
    · exact absurd hidle Bool.false_ne_true
    · exact absurd (h.symm.trans hbar) Bool.false_ne_true

/-- The endpoints are those from before in the same places. -/
def Withheld [Meter L] (idle : Bool) (before after : List (Outlet L)) : Prop :=
  List.Forall₂ (Outlet.Withholds idle) before after

namespace Withheld

variable [Meter L] {before between after : List (Outlet L)}

theorem refl (before : List (Outlet L)) : Withheld idle before before :=
  List.forall₂_same.2 fun o _ => ⟨id, fun _ => Meter.refl o.sink⟩

theorem trans (h : Withheld idle before between) (h' : Withheld idle between after) :
    Withheld idle before after := by
  induction h generalizing after with
  | nil => exact h'
  | cons hwithholds _ ih =>
    obtain ⟨o, rest, hwithholds', hrest, rfl⟩ := List.forall₂_cons_left_iff.1 h'
    refine .cons ⟨fun hbar => hwithholds'.1 (hwithholds.1 hbar), fun hstill => ?_⟩ (ih hrest)
    exact Meter.trans_nil (hwithholds.2 hstill) (hwithholds'.2 (hstill.imp_right hwithholds.1))

theorem of_idle (h : Withheld true before after) : Withheld idle before after :=
  h.imp fun _ _ hwithholds => ⟨hwithholds.1, fun _ => hwithholds.2 (.inl rfl)⟩

theorem append {others others' : List (Outlet L)} (h : Withheld idle before after)
    (h' : Withheld idle others others') : Withheld idle (before ++ others) (after ++ others') :=
  List.rel_append h h'

/-- A bar may come down on the way. -/
theorem to_bar (h : Withheld idle before after) : Withheld idle before (after.map .bar) :=
  List.forall₂_map_right_iff.2 (h.imp fun _ _ hwithholds => ⟨fun _ => rfl, hwithholds.2⟩)

/-- Behind a bar there is only what carries no bytes. -/
theorem bar (h : Withheld true before after) : Withheld idle (before.map .bar) (after.map .bar) :=
  List.forall₂_map_left_iff.2 (List.forall₂_map_right_iff.2
    (h.imp fun _ _ hwithholds => ⟨fun _ => rfl, fun _ => hwithholds.2 (.inl rfl)⟩))

/-- What is shut stays shut, and then there is only what carries no bytes. -/
theorem behind {shut shut' : Prop} [Decidable shut] [Decidable shut']
    (h : Withheld idle before after) (hshut : shut → shut' ∧ Withheld true before after) :
    Withheld idle (Outlet.behind shut before) (Outlet.behind shut' after) := by
  by_cases hs : shut
  · obtain ⟨hs', hidle⟩ := hshut hs
    rw [Outlet.behind, Outlet.behind, if_pos hs, if_pos hs']
    exact hidle.bar
  rw [Outlet.behind, Outlet.behind, if_neg hs]
  split
  · exact h.to_bar
  · exact h

/-- Step by step, and from a place that is fixed. -/
theorem keeps {f : τ → List (Outlet L)} {x : Action τ α}
    (h : ∀ s, x.Ends s fun _ t => Withheld idle (f s) (f t)) :
    Keeps (fun s => Withheld idle before (f s)) x :=
  fun s hs => (h s).mono fun _ _ ht => hs.trans ht

/-- What goes on may be nothing at all. -/
theorem keeps_of_idle {f : τ → List (Outlet L)} {x : Action τ α}
    (h : ∀ s, x.Ends s fun _ t => Withheld true (f s) (f t)) :
    Keeps (fun s => Withheld idle before (f s)) x :=
  keeps fun s => (h s).mono fun _ _ ht => ht.of_idle

end Withheld

section Sinks

variable [Meter L]

/-- The operations of the sink take nothing past a bar, and a flush or a close takes nothing
anywhere. -/
structure Sink.Bars [Sink σ] (outlets : σ → List (Outlet L)) : Prop where
  close : ∀ s, (Closeable.close : Action σ Unit).Ends s fun _ t =>
    Withheld true (outlets s) (outlets t)
  flush : ∀ s, (Sink.flush : Action σ Unit).Ends s fun _ t => Withheld true (outlets s) (outlets t)
  keeps : ∀ before, Sink.Keeps fun s => Withheld false before (outlets s)

/-! ## Endpoints -/

omit [Meter L] in
/-- An endpoint that is sealed stays as it is, whatever is done to it. -/
def Sink.Seals [Sink L] (sealed : L → Bool) : Prop :=
  ∀ s, sealed s = true → Sink.Keeps fun t => t = s

namespace Sink

variable {sealed : L → Bool} {before : List (Outlet L)}

theorem keeps_of_sealed {endpoint : τ → L} {x : Action τ α}
    (hx : ∀ l, sealed l = true → Action.Keeps (fun s => endpoint s = l) x) :
    Action.Keeps (fun s => Withheld false before [⟨sealed (endpoint s), endpoint s⟩]) x := by
  refine Withheld.keeps (f := fun s => [⟨sealed (endpoint s), endpoint s⟩]) fun s => ?_
  cases hsealed : sealed (endpoint s) with
  | false => exact .cons (Outlet.withholds_of_open rfl) .nil
  | true =>
    refine (hx _ hsealed s rfl).mono ?_
    intro answer t ht
    rw [ht, hsealed]
    exact .refl _

theorem Seals.bars [Sink L] [MeteredSink L] (h : Seals sealed) :
    Bars fun s : L => [⟨sealed s, s⟩] := by
  have hidle {x : Action L Unit} (hquiet : Quiet x)
      (hkeeps : ∀ l, sealed l = true → Action.Keeps (fun s => s = l) x) (s : L) :
      x.Ends s fun _ t => Withheld true [⟨sealed s, s⟩] [⟨sealed t, t⟩] := by
    refine .cons ⟨fun hsealed => ?_, fun _ => hquiet s⟩ .nil
    obtain hsame : (x.run s).state = s := hkeeps s hsealed s rfl
    rwa [hsame]
  have hclose := hidle MeteredSink.close fun l hl => (h l hl).close
  have hflush := hidle MeteredSink.flush fun l hl => (h l hl).flush
  exact ⟨hclose, hflush, fun before => ⟨Withheld.keeps_of_idle hclose,
    fun v => keeps_of_sealed fun l hl => (h l hl).writeU8 v, Withheld.keeps_of_idle hflush,
    fun bytes => keeps_of_sealed fun l hl => (h l hl).writeBytes bytes,
    fun units => keeps_of_sealed fun l hl => (h l hl).writeUnits units,
    keeps_of_sealed fun l hl => (h l hl).drain⟩⟩

end Sink

namespace HashingSink

omit [Meter L] in
/-- A hashing sink that was closed refuses every byte, and closing it again changes nothing. -/
theorem keeps_of_closed {s : HashingSink} (h : s.closed = true) : Sink.Keeps fun t => t = s := by
  rcases s with ⟨algorithm, state, count, closed⟩
  obtain rfl : closed = true := h
  have hwrite (v : UInt8) : Action.Keeps (fun t => t = ⟨algorithm, state, count, true⟩)
      (Sink.writeU8 v : Action HashingSink Unit) := by
    rintro t rfl
    rfl
  refine ⟨?_, hwrite, .pure (), ?_, Sink.keeps_writeUnits hwrite, ?_⟩
  · rintro t rfl
    rfl
  · rintro bytes t rfl
    rfl
  · rintro ⟨t, r⟩ rfl
    rfl

end HashingSink

namespace SinkEnd

/-- Whether it is a hashing sink that was closed. -/
def sealed : SinkEnd E S → Bool
  | .hashing s => s.closed
  | _ => false

omit [Meter L] in
theorem seals [OutputDevice E] [Sink S] : Sink.Seals (sealed : SinkEnd E S → Bool) := by
  rintro (s | s | s | s | s) hs
  case hashing =>
    have hkeeps := HashingSink.keeps_of_closed hs
    refine ⟨?_, fun v => ?_, ?_, fun bytes => ?_, fun units => ?_, ?_⟩
    · rintro t rfl
      exact congrArg SinkEnd.hashing (hkeeps.close s rfl)
    · rintro t rfl
      exact congrArg SinkEnd.hashing (hkeeps.writeU8 v s rfl)
    · rintro t rfl
      exact congrArg SinkEnd.hashing (hkeeps.flush s rfl)
    · rintro t rfl
      exact congrArg SinkEnd.hashing (hkeeps.writeBytes bytes s rfl)
    · rintro t rfl
      exact congrArg SinkEnd.hashing (hkeeps.writeUnits units s rfl)
    · rintro ⟨t, r⟩ rfl
      exact congrArg SinkEnd.hashing (hkeeps.drain (s, r) rfl)
  all_goals exact absurd hs Bool.false_ne_true

end SinkEnd

/-! ## Layers -/

variable {below : σ → List (Outlet L)}

namespace Quota

theorem bars [Sink σ] (h : Sink.Bars below) : Sink.Bars (Quota.outlets below) := by
  have hinner {x : Action σ Unit}
      (hx : ∀ s, x.Ends s fun _ t => Withheld true (below s) (below t)) (q : Quota σ) :
      (onInner x).Ends q fun _ q' => Withheld true (q.outlets below) (q'.outlets below) := by
    rw [ends_onInner]
    exact (hx q.inner).mono fun _ _ hs => hs.behind fun hzero => ⟨hzero, hs⟩
  refine ⟨hinner h.close, hinner h.flush, fun before => .of_writeU8
    (Withheld.keeps_of_idle (hinner h.close)) (fun v => ?write)
    (Withheld.keeps_of_idle (hinner h.flush)) ?drain (fun _ => rfl) fun _ => rfl⟩
  case write =>
    refine Withheld.keeps (f := fun q : Quota σ => q.outlets below) fun q => ?_
    change (counted (Sink.writeU8 v)).Ends q _
    rw [ends_counted]
    by_cases hzero : q.remaining = 0
    · rw [if_pos hzero]
      exact .refl _
    · rw [if_neg hzero]
      refine ((h.keeps _).writeU8 v q.inner (.refl _)).mono ?_
      intro answer s hs
      cases answer with
      | error fault => exact hs.behind fun hz => absurd hz hzero
      | ok _ => exact hs.behind fun hz => absurd hz hzero
  case drain =>
    refine Withheld.keeps (f := fun p : Quota σ × Region => p.1.outlets below) ?_
    rintro ⟨q, r⟩
    change (clipped Sink.drain).Ends (q, r) _
    rw [ends_clipped]
    by_cases hzero : q.remaining = 0
    · rw [if_pos hzero]
      exact .refl _
    · rw [if_neg hzero]
      refine ((h.keeps _).drain (q.inner, _) (.refl _)).mono ?_
      intro answer p hp
      exact hp.behind fun hz => absurd hz hzero

end Quota

theorem Traced.bars [Sink σ] (h : Sink.Bars below) : Sink.Bars fun t : Traced σ => below t.inner :=
  ⟨fun t => h.close t.inner, fun t => h.flush t.inner, fun before => keeps_sink (h.keeps before)⟩

theorem Relay.bars [Sink σ] (h : Sink.Bars below) : Sink.Bars fun t : Relay σ => below t.inner :=
  ⟨fun t => h.close t.inner, fun t => h.flush t.inner, fun before => keeps_sink (h.keeps before)⟩

namespace Closing

/-- A wrapper that is open is not shut. -/
theorem ends_whenOpen_outlets {x : Action σ α}
    (hx : ∀ s, x.Ends s fun _ t => Withheld idle (below s) (below t)) (c : Closing P σ) :
    (whenOpen x).Ends c fun _ d => Withheld idle (c.outlets below) (d.outlets below) := by
  cases hclosed : c.closed with
  | true => exact (ends_whenOpen_of_closed hclosed ..).2 (.refl _)
  | false =>
    refine (ends_whenOpen hclosed ..).2 ((hx c.inner).mono fun _ _ hs => hs.behind fun hshut => ?_)
    exact absurd (hclosed.symm.trans hshut.2) Bool.false_ne_true

theorem ends_whenOpenWith_outlets {x : Action (σ × ρ) α}
    (hx : ∀ p, x.Ends p fun _ q => Withheld idle (below p.1) (below q.1)) (p : Closing P σ × ρ) :
    (whenOpenWith x).Ends p fun _ q => Withheld idle (p.1.outlets below) (q.1.outlets below) := by
  obtain ⟨c, a⟩ := p
  cases hclosed : c.closed with
  | true => exact (ends_whenOpenWith_of_closed hclosed ..).2 (.refl _)
  | false =>
    refine (ends_whenOpenWith hclosed ..).2
      ((hx (c.inner, a)).mono fun _ _ hs => hs.behind fun hshut => ?_)
    exact absurd (hclosed.symm.trans hshut.2) Bool.false_ne_true

theorem bars [Sink σ] [ClosePolicy P σ] (h : Sink.Bars below)
    (hpolicy : ∀ before, Keeps (fun p => Withheld true before (below p.2))
      (ClosePolicy.onClose : Action (P × σ) Bool)) :
    Sink.Bars fun c : Closing P σ => c.outlets below := by
  have hshut (c : Closing P σ) : (shut : Action (Closing P σ) Unit).Ends c fun _ d =>
      Withheld true (c.outlets below) (d.outlets below) := by
    rw [ends_shut]
    by_cases happlied : c.applied = true
    · rw [if_pos happlied]
      exact .refl _
    · rw [if_neg happlied]
      refine (hpolicy _ (c.policy, c.inner) (.refl _)).mono ?_
      rintro answer ⟨policy, s⟩ hs
      cases answer with
      | ok _ => exact hs.behind fun hdone => absurd hdone.1 happlied
      | error fault => exact hs.behind fun hdone => absurd hdone.1 happlied
  have hflush := ends_whenOpen_outlets (P := P) h.flush
  refine ⟨hshut, hflush, fun before => ⟨Withheld.keeps_of_idle hshut, fun v => ?_,
    Withheld.keeps_of_idle hflush, fun bytes => ?_, fun units => ?_, ?_⟩⟩
  · exact Withheld.keeps (ends_whenOpen_outlets fun s => (h.keeps _).writeU8 v s (.refl _))
  · exact Withheld.keeps (ends_whenOpen_outlets fun s => (h.keeps _).writeBytes bytes s (.refl _))
  · exact Withheld.keeps (ends_whenOpen_outlets fun s => (h.keeps _).writeUnits units s (.refl _))
  · exact Withheld.keeps (f := fun p : Closing P σ × Region => p.1.outlets below)
      (ends_whenOpenWith_outlets fun p => (h.keeps _).drain p (.refl _))

end Closing

namespace Chain

variable {left rest : List σ} {m m' : σ} {policy policy' : P} {closed closed' : Bool}

/-- The active member has members behind it and members ahead. -/
theorem withheld_active (h : Withheld idle (below m) (below m')) :
    Withheld idle (outlets below ⟨left, m :: rest, policy, closed⟩)
      (outlets below ⟨left, m' :: rest, policy', closed'⟩) := by
  simp only [outlets, List.flatMap_cons]
  exact (Withheld.refl _).append (h.append (.refl _))

/-- When the active member is left the bar comes down. -/
theorem withheld_left (h : Withheld idle (below m) (below m')) :
    Withheld idle (outlets below ⟨left, m :: rest, policy, closed⟩)
      (outlets below ⟨m' :: left, rest, policy', closed'⟩) := by
  simp only [outlets, List.flatMap_cons, List.reverse_cons, List.flatMap_append, List.map_append,
    List.flatMap_nil, List.append_nil, List.append_assoc]
  exact (Withheld.refl _).append (h.to_bar.append (.refl _))

/-- The member that was left last is behind its bar. -/
theorem withheld_last (h : Withheld true (below m) (below m')) :
    Withheld idle (outlets below ⟨m :: left, rest, policy, closed⟩)
      (outlets below ⟨m' :: left, rest, policy', closed'⟩) := by
  simp only [outlets, List.flatMap_cons, List.reverse_cons, List.flatMap_append, List.map_append,
    List.flatMap_nil, List.append_nil, List.append_assoc]
  exact (Withheld.refl _).append (h.bar.append (.refl _))

theorem ends_onActive_outlets {x : Action σ α}
    (hx : ∀ s, x.Ends s fun _ t => Withheld idle (below s) (below t)) (c : Chain P σ) :
    (onActive x).Ends c fun _ d => Withheld idle (c.outlets below) (d.outlets below) := by
  rcases c with ⟨left, _ | ⟨m, rest⟩, policy, closed⟩
  · exact .refl _
  · rw [ends_onActive_cons]
    exact (hx m).mono fun _ _ hm => withheld_active hm

theorem ends_onActiveWith_outlets {x : Action (σ × ρ) α}
    (hx : ∀ p, x.Ends p fun _ q => Withheld idle (below p.1) (below q.1)) (p : Chain P σ × ρ) :
    (onActiveWith x).Ends p fun _ q => Withheld idle (p.1.outlets below) (q.1.outlets below) := by
  rcases p with ⟨⟨left, _ | ⟨m, rest⟩, policy, closed⟩, a⟩
  · exact .refl _
  · rw [ends_onActiveWith_cons]
    exact (hx (m, a)).mono fun _ _ hm => withheld_active hm

theorem ends_closeLast_outlets {close : Action σ Unit}
    (hclose : ∀ s, close.Ends s fun _ t => Withheld true (below s) (below t)) (c : Chain P σ) :
    (closeLast close).Ends c fun _ d => Withheld true (c.outlets below) (d.outlets below) := by
  rw [ends_closeLast]
  rcases c with ⟨_ | ⟨last, earlier⟩, ahead, policy, closed⟩
  · exact .refl _
  · exact (hclose last).mono fun _ _ hlast => withheld_last hlast

variable [ClosePolicy P σ]

/-- Settling the member and what the policy does to it carry no bytes. -/
theorem ends_leave_outlets {settle : Action σ Unit}
    (hsettle : ∀ s, settle.Ends s fun _ t => Withheld true (below s) (below t))
    (hpolicy : ∀ before, Keeps (fun p => Withheld true before (below p.2))
      (ClosePolicy.onClose : Action (P × σ) Bool)) (c : Chain P σ) :
    (leave settle).Ends c fun _ d => Withheld true (c.outlets below) (d.outlets below) := by
  rcases c with ⟨left, _ | ⟨m, rest⟩, policy, closed⟩
  · exact .refl _
  · rw [ends_leave_cons]
    refine (hsettle m).mono ?_
    intro settled m' hm
    exact (hpolicy _ (policy, m') hm).mono fun _ _ hleft => withheld_left hleft

theorem bars [Sink σ] (h : Sink.Bars below)
    (hpolicy : ∀ before, Keeps (fun p => Withheld true before (below p.2))
      (ClosePolicy.onClose : Action (P × σ) Bool)) :
    Sink.Bars fun c : Chain P σ => c.outlets below := by
  have hleave := ends_leave_outlets h.flush hpolicy
  have hlast := ends_closeLast_outlets (P := P) h.close
  have hclose (c : Chain P σ) : (finish Sink.flush Closeable.close).Ends c fun _ d =>
      Withheld true (c.outlets below) (d.outlets below) :=
    ends_finish_of_keeps (Withheld.keeps hleave) (Withheld.keeps hlast) (fun _ => .refl _) (.refl _)
  have hflush (c : Chain P σ) : (Sink.flush : Action (Chain P σ) Unit).Ends c fun _ d =>
      Withheld true (c.outlets below) (d.outlets below) := by
    -- an exhausted chain has nothing to flush
    rcases c with ⟨left, _ | ⟨m, rest⟩, policy, closed⟩
    · exact .refl _
    · exact ends_onActive_outlets h.flush ⟨left, m :: rest, policy, closed⟩
  refine ⟨hclose, hflush, fun before => keeps_sink (Withheld.keeps_of_idle hclose)
    (Withheld.keeps_of_idle hleave) (fun v => ?_) ?_ ?_⟩
  · exact Withheld.keeps (ends_onActive_outlets fun s => (h.keeps _).writeU8 v s (.refl _))
  · exact Withheld.keeps_of_idle (ends_onActive_outlets h.flush)
  · exact Withheld.keeps (f := fun p : Chain P σ × Region => p.1.outlets below)
      (ends_onActiveWith_outlets fun p => (h.keeps _).drain p (.refl _))

end Chain

/-! ## Trees -/

theorem Layer.bars [Sink L] [MeteredSink L] {sealed : L → Bool} (hseals : Sink.Seals sealed)
    [Sink σ] [ClosePolicy P σ] (h : Sink.Bars below)
    (hpolicy : ∀ before, Keeps (fun p => Withheld true before (below p.2))
      (ClosePolicy.onClose : Action (P × σ) Bool)) :
    Sink.Bars fun s : Layer P L σ => s.outlets sealed below := by
  have he := hseals.bars
  have hq := Quota.bars h
  have hc := Closing.bars h hpolicy
  have hn := Chain.bars h hpolicy
  have ht := Traced.bars h
  have hr := Relay.bars h
  refine ⟨?_, ?_, fun before => keeps_sink (he.keeps before) (hq.keeps before) (hc.keeps before)
    (hn.keeps before) (ht.keeps before) (hr.keeps before)⟩
  · rintro (s | s | s | s | s | s)
    exacts [he.close s, hq.close s, hc.close s, hn.close s, ht.close s, hr.close s]
  · rintro (s | s | s | s | s | s)
    exacts [he.flush s, hq.flush s, hc.flush s, hn.flush s, ht.flush s, hr.flush s]

/-- Whatever is done to a tree, a bar in it does not come up again, and nothing goes past it. -/
theorem Tree.bars [SinkPolicy P] [SilentPolicy P] [Sink L] [MeteredSink L] {sealed : L → Bool}
    (hseals : Sink.Seals sealed) {n : Nat} :
    Sink.Bars fun t : Tree P L n => t.outlets sealed := by
  induction n with
  | zero =>
    exact ⟨fun t => t.elim, fun t => t.elim, fun _ => ⟨fun t => t.elim, fun _ t => t.elim,
      fun t => t.elim, fun _ t => t.elim, fun _ t => t.elim, fun p => p.1.elim⟩⟩
  | succ n ih =>
    exact Layer.bars hseals ih fun before => SilentPolicy.keeps_onClose
      (Withheld.keeps_of_idle ih.close) (Withheld.keeps_of_idle ih.flush)

end Sinks

end ByteFlow
