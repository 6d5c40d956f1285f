import ByteFlow.Proofs.Bare
import ByteFlow.Proofs.Lossless.Fill
import ByteFlow.Proofs.Openness

/-!
# Filling a region that only gives bytes

An endpoint that is to fill a region which only gives bytes refuses it before it does anything
else.  The layers over it hand the call on, so that the refusal is the answer there, too, unless
the call does not reach an endpoint at all: a quota that is used up and a chain that has left its
members move no bytes, and have no reason to look at the region.

A chain that stands at a member without a way to an endpoint finds out only by asking that
member, and leaves it for the next one.  That moves its cursor, and may put flags up, but no device
is asked for anything.

## Main definitions

* `Barrier` — whether a call reaches an endpoint, and whether it does so at once.
* `Rejected` — how a fill of a region that only gives bytes ends.
* `RejectingSource` — sources whose fills end like this.
* `Tree.fill_rejected` — the fills of all trees do.
-/

namespace ByteFlow

open ByteFlow.Action

variable {D P L S σ : Type}

/-! ## The way to an endpoint -/

/-- What lies between a stream and its endpoints. -/
class Barrier (σ : Type) where
  /-- Quotas that are used up and members that were left bar every way to an endpoint. -/
  barred : σ → Bool
  /-- No chain on the way has to leave a barred member first. -/
  direct : σ → Bool

open Barrier (barred direct)

instance : Barrier Empty where
  barred := nofun
  direct := nofun

instance : Barrier (SourceEnd D S) where
  barred _ := false
  direct _ := true

section Layers

variable [Barrier σ]

instance : Barrier (Quota σ) where
  barred q := q.remaining == 0 || barred q.inner
  direct q := q.remaining == 0 || direct q.inner

instance : Barrier (Closing P σ) where
  barred c := barred c.inner
  direct c := direct c.inner

instance : Barrier (Traced σ) where
  barred t := barred t.inner
  direct t := direct t.inner

instance : Barrier (Relay σ) where
  barred t := barred t.inner
  direct t := direct t.inner

instance : Barrier (Chain P σ) where
  barred c := c.ahead.all barred
  direct c :=
    match c.ahead with
    | [] => true
    | m :: _ => !barred m && direct m

instance [Barrier L] : Barrier (Layer P L σ) where
  barred
    | .endpoint s => barred s
    | .quota s => barred s
    | .closing s => barred s
    | .chain s => barred s
    | .traced s => barred s
    | .relay s => barred s
  direct
    | .endpoint s => direct s
    | .quota s => direct s
    | .closing s => direct s
    | .chain s => direct s
    | .traced s => direct s
    | .relay s => direct s

end Layers

instance Tree.instBarrier [Barrier L] : (n : Nat) → Barrier (Tree P L n)
  | 0 => inferInstanceAs (Barrier Empty)
  | n + 1 =>
    have := instBarrier n
    inferInstanceAs (Barrier (Layer P L (Tree P L n)))

/-! ## How such a fill ends -/

/-- The region is refused unless the way is barred, and stays as it is.  So does the stream if the
way is direct, and all of it but flags and cursors if not. -/
structure Rejected [Openness σ] [Barrier σ] [Bare σ] (s : σ) (r : Region)
    (answer : Except Fault Unit) (p : σ × Region) : Prop where
  answer_eq : answer = if barred s then .ok () else .error (.misuse .readOnlyRegion)
  region_eq : p.2 = r
  state_eq : direct s = true → p.1 = s
  bare_eq : bare p.1 = bare s
  isOpen : IsOpen p.1

/-- A wrapper that has the same way to an endpoint, and is open if the stream under it is. -/
theorem Rejected.wrap {τ : Type} [Openness σ] [Barrier σ] [Bare σ] [Openness τ] [Barrier τ]
    [Bare τ] {s : σ} {r : Region} {answer : Except Fault Unit} {p : σ × Region}
    (h : Rejected s r answer p) {f : σ → τ} (hbarred : barred (f s) = barred s)
    (hdirect : direct (f s) = direct s) (hbare : bare p.1 = bare s → bare (f p.1) = bare (f s))
    (hopen : IsOpen p.1 → IsOpen (f p.1)) : Rejected (f s) r answer (f p.1, p.2) where
  answer_eq := by rw [h.answer_eq, hbarred]
  region_eq := h.region_eq
  state_eq hs := congrArg f (h.state_eq (hdirect ▸ hs))
  bare_eq := hbare h.bare_eq
  isOpen := hopen h.isOpen

/-- A region that only gives bytes, and still has some. -/
structure Region.Sealed (r : Region) : Prop extends WellFormed r where
  readOnly_eq : r.readOnly = true
  remaining_ne : r.remaining ≠ 0

/-- A source that refuses to fill a region that only gives bytes. -/
class RejectingSource (σ : Type) [Source σ] [Openness σ] [Barrier σ] [Bare σ] : Prop
    extends LawfulClose σ where
  fill : ∀ {s : σ} {r : Region}, IsOpen s → r.Sealed →
    (Source.fill : Action (σ × Region) Unit).Ends (s, r) (Rejected s r)

/-! ## Endpoints -/

instance : RejectingSource Empty where
  ends_close {s} := nomatch s
  fill {s} := nomatch s

instance : Openness (DeviceSource D) where
  IsOpen s := s.closed = false
  Closable _ := True
  closable _ := trivial

instance [Openness S] : Openness (SourceEnd D S) where
  IsOpen
    | .memory s => IsOpen s
    | .device s => IsOpen s
    | .outside s => IsOpen s
  Closable
    | .memory s => Closable s
    | .device s => Closable s
    | .outside s => Closable s
  closable {s} h := by
    cases s with
    | memory s => exact Openness.closable (s := s) h
    | device s => exact Openness.closable (s := s) h
    | outside s => exact Openness.closable (s := s) h

/-- The region is looked at before the device is asked. -/
theorem InputDevice.ends_readSome_of_sealed [InputDevice D] (d : D) {r : Region} (hr : r.Sealed)
    (Q : Except Fault Unit → D × Region → Prop) :
    readSome.Ends (d, r) Q ↔ Q (.error (.misuse .readOnlyRegion)) (d, r) := by
  have hroom : r.hasRemaining = true := (Region.hasRemaining_iff r).2 hr.remaining_ne
  rw [readSome, readLoop, ends_gets_bind, ends_repeatUntil_succ, ends_gets_bind, if_pos hroom,
    readOnce, ends_bind, ends_bind, ends_onSecond,
    Region.ends_requireWritable_of_readOnly hr.readOnly_eq]

/-- An endpoint refuses the region at once. -/
theorem Rejected.of_endpoint {s : SourceEnd D S} [Openness S] [Bare S] (h : IsOpen s) (r : Region) :
    Rejected s r (.error (.misuse .readOnlyRegion)) (s, r) :=
  ⟨rfl, rfl, fun _ => rfl, rfl, h⟩

instance [InputDevice D] : RejectingSource (SourceEnd D Empty) where
  ends_close {s} _ := by
    cases s with
    | memory s => exact ⟨rfl, trivial⟩
    | device s => exact ⟨rfl, trivial⟩
    | outside s => exact Empty.elim s
  fill {s r} hs hr := by
    cases s with
    | memory s =>
      exact (MemorySource.ends_copyInto_of_readOnly hs hr.readOnly_eq fun answer p =>
        Rejected (SourceEnd.memory s) r answer (.memory p.1, p.2)).2 (Rejected.of_endpoint hs r)
    | device s =>
      rcases s with ⟨d, closed⟩
      obtain rfl : closed = false := hs
      exact (InputDevice.ends_readSome_of_sealed d hr fun answer p =>
        Rejected (SourceEnd.device ⟨d, false⟩) r answer (.device ⟨p.1, false⟩, p.2)).2
          (Rejected.of_endpoint (s := .device ⟨d, false⟩) rfl r)
    | outside s => exact Empty.elim s

/-! ## Layers -/

theorem Region.Sealed.narrowed {r : Region} (hr : r.Sealed) {n : Nat} (hn : n ≠ 0) :
    (r.narrowed n).Sealed where
  toWellFormed := hr.toWellFormed.narrowed n
  readOnly_eq := hr.readOnly_eq
  remaining_ne := by
    have := hr.remaining_ne
    rw [Region.remaining_narrowed hr.toWellFormed]
    omega

section Layers

variable [Source σ] [Openness σ] [Barrier σ] [Bare σ] [RejectingSource σ]

/-- The window is widened again, and nothing is counted. -/
instance : RejectingSource (Quota σ) where
  ends_close h := LawfulClose.ends_close (σ := σ) h
  fill {q r} hq hr := by
    change (Quota.clipped Source.fill).Ends (q, r) _
    rw [Quota.ends_clipped]
    by_cases hzero : q.remaining = 0
    · rw [if_pos hzero]
      exact ⟨by simp [barred, hzero], rfl, fun _ => rfl, rfl, hq⟩
    rw [if_neg hzero]
    refine (RejectingSource.fill (s := q.inner) hq (hr.narrowed hzero)).mono ?_
    rintro answer ⟨s, _⟩ ⟨hanswer, rfl, hstate, hbare, hopen⟩
    have hbare : bare s = bare q.inner := hbare
    have hposition := Region.position_narrowed hr.toWellFormed q.remaining
    have hback : ((r.narrowed q.remaining).skip 0).setLimit r.limit = r.skip 0 :=
      Region.setLimit_skip_narrowed hr.toWellFormed (Nat.zero_le _)
    refine ⟨?_, hback, ?_, ?_, hopen⟩
    · simpa [barred, hzero] using hanswer
    · intro hdirect
      have hinner : s = q.inner := hstate (by simpa [direct, hzero] using hdirect)
      simp only [hinner, hposition, Nat.sub_self, Nat.sub_zero]
    · simp only [bare, hbare, hposition, Nat.sub_self, Nat.sub_zero]

instance : RejectingSource (Traced σ) where
  ends_close h := LawfulClose.ends_close (σ := σ) h
  fill {t r} ht hr := by
    have h : Rejected t.inner r _ _ := RejectingSource.fill ht hr
    exact h.wrap (f := (Traced.mk · t.label)) rfl rfl (congrArg (Traced.mk · t.label)) id

instance : RejectingSource (Relay σ) where
  ends_close h := LawfulClose.ends_close (σ := σ) h
  fill {t r} ht hr := by
    have h : Rejected t.inner r _ _ := RejectingSource.fill ht hr
    exact h.wrap (f := Relay.mk) rfl rfl (congrArg Relay.mk) id

variable [ClosePolicy P σ] [Harmless P σ]

instance : RejectingSource (Closing P σ) where
  ends_close h := Closing.ends_shut_of_closable h
  fill {c r} hc hr := by
    change (Closing.whenOpenWith Source.fill).Ends (c, r) _
    rw [Closing.ends_whenOpenWith hc.1]
    refine (RejectingSource.fill (s := c.inner) hc.2 hr).mono fun _ _ h => ?_
    exact h.wrap (f := fun s => { c with inner := s }) rfl rfl
      (congrArg fun s => Closing.mk s c.policy false false) (And.intro hc.1)

namespace Chain

/-- A source has nothing to settle. -/
theorem settles_pure {σ : Type} [Openness σ] : Settles (pure () : Action σ Unit) :=
  fun _ hm => ⟨rfl, hm⟩

omit [ClosePolicy P σ] [Harmless P σ] [Source σ] [RejectingSource σ] [Barrier σ] [Bare σ] in
/-- The chain with another open member in place of the active one is open. -/
theorem isOpen_active {left rest : List σ} {m m' : σ} {policy : P} {closed : Bool}
    (h : IsOpen (⟨left, m :: rest, policy, closed⟩ : Chain P σ)) (hm : IsOpen m') :
    IsOpen (⟨left, m' :: rest, policy, closed⟩ : Chain P σ) :=
  ⟨h.1, List.forall_mem_cons.2 ⟨hm, (List.forall_mem_cons.1 h.2).2⟩⟩

omit [ClosePolicy P σ] [Harmless P σ] [Source σ] [RejectingSource σ] [Barrier σ] [Openness σ] in
theorem bare_active {left rest : List σ} {m m' : σ} {policy : P} {closed : Bool}
    (h : bare m' = bare m) :
    bare (⟨left, m' :: rest, policy, closed⟩ : Chain P σ) =
      bare ⟨left, m :: rest, policy, closed⟩ := by
  simp [bare, members, h]

variable [UnmovedPolicy P σ]

omit [Source σ] [RejectingSource σ] [Barrier σ] in
/-- Leaving a member of an open chain moves the cursor, and moves nothing under the chain. -/
theorem ends_leave_unmoved {c : Chain P σ} {m : σ} {rest : List σ} (h : IsOpen c)
    (hahead : c.ahead = m :: rest) :
    (leave (pure ())).Ends c fun answer d =>
      answer = .ok () ∧ IsOpen d ∧ d.ahead = rest ∧ bare d = bare c := by
  refine ((ends_leave_of_isOpen settles_pure h hahead).and (keeps_bare_leave _ c rfl)).mono ?_
  rintro answer d ⟨⟨hanswer, hopen, hrest⟩, hbare⟩
  exact ⟨hanswer, hopen, hrest, hbare⟩

/-- Members are left until one refuses the region.  The induction is on the members ahead. -/
theorem ends_spread_rejected {c : Chain P σ} {r : Region} (hc : IsOpen c) (hr : r.Sealed) :
    (spread (pure ()) Source.fill).Ends (c, r) (Rejected c r) := by
  generalize hahead : c.ahead = ahead
  induction ahead generalizing c with
  | nil =>
    rcases c with ⟨left, ahead, policy, closed⟩
    obtain rfl : ahead = [] := hahead
    rw [ends_spread_nil]
    exact ⟨rfl, rfl, fun _ => rfl, rfl, hc⟩
  | cons m rest ih =>
    rcases c with ⟨left, ahead, policy, closed⟩
    obtain rfl : ahead = m :: rest := hahead
    rw [ends_spread_cons, if_neg hr.remaining_ne]
    refine (RejectingSource.fill (hc.2 m List.mem_cons_self) hr).mono ?_
    rintro answer ⟨m', _⟩ ⟨rfl, rfl, hstate, hbare, hopen⟩
    have hactive := isOpen_active hc hopen
    have hbare : bare (⟨left, m' :: rest, policy, closed⟩ : Chain P σ) =
        bare ⟨left, m :: rest, policy, closed⟩ := bare_active hbare
    cases hbarred : barred m with
    | false =>
      refine ⟨by simp [barred, hbarred], rfl, fun hdirect => ?_, hbare, hactive⟩
      have hm : m' = m := hstate (by simpa [direct, hbarred] using hdirect)
      rw [hm]
    | true =>
      simp only [if_true, if_neg hr.remaining_ne]
      refine (ends_leave_unmoved hactive rfl).of_answer ?_
      rintro d ⟨hd, hrest, hleft⟩
      -- the members after the barred one decide
      refine (ih hd hrest).mono ?_
      rintro answer p ⟨hanswer, hregion, -, hothers, hopen⟩
      refine ⟨?_, hregion, ?_, hothers.trans (hleft.trans hbare), hopen⟩
      · simpa [barred, hbarred, hrest] using hanswer
      · intro hdirect
        simp [direct, hbarred] at hdirect

instance : RejectingSource (Chain P σ) where
  ends_close h := ends_finish_of_closable settles_pure h
  fill := ends_spread_rejected

end Chain

instance [UnmovedPolicy P σ] [Source L] [Openness L] [Barrier L] [Bare L] [RejectingSource L] :
    RejectingSource (Layer P L σ) where
  ends_close {s} h := by
    cases s with
    | endpoint s => exact LawfulClose.ends_close (s := s) h
    | quota s => exact LawfulClose.ends_close (s := s) h
    | closing s => exact LawfulClose.ends_close (s := s) h
    | chain s => exact LawfulClose.ends_close (s := s) h
    | traced s => exact LawfulClose.ends_close (s := s) h
    | relay s => exact LawfulClose.ends_close (s := s) h
  fill {s r} hs hr := by
    cases s with
    | endpoint s =>
      have h : Rejected s r _ _ := RejectingSource.fill hs hr
      exact h.wrap (f := Layer.endpoint) rfl rfl (congrArg Layer.endpoint) id
    | quota s =>
      have h : Rejected s r _ _ := RejectingSource.fill hs hr
      exact h.wrap (f := Layer.quota) rfl rfl (congrArg Layer.quota) id
    | closing s =>
      have h : Rejected s r _ _ := RejectingSource.fill hs hr
      exact h.wrap (f := Layer.closing) rfl rfl (congrArg Layer.closing) id
    | chain s =>
      have h : Rejected s r _ _ := RejectingSource.fill hs hr
      exact h.wrap (f := Layer.chain) rfl rfl (congrArg Layer.chain) id
    | traced s =>
      have h : Rejected s r _ _ := RejectingSource.fill hs hr
      exact h.wrap (f := Layer.traced) rfl rfl (congrArg Layer.traced) id
    | relay s =>
      have h : Rejected s r _ _ := RejectingSource.fill hs hr
      exact h.wrap (f := Layer.relay) rfl rfl (congrArg Layer.relay) id

end Layers

instance Tree.instRejectingSource [Source L] [Openness L] [Barrier L] [Bare L] [UnmovedClose L]
    [RejectingSource L] : (n : Nat) → RejectingSource (Tree StandardPolicy L n)
  | 0 => inferInstanceAs (RejectingSource Empty)
  | n + 1 =>
    have := instRejectingSource n
    inferInstanceAs (RejectingSource (Layer StandardPolicy L (Tree StandardPolicy L n)))

/-! ## Trees -/

instance : PlainSource Empty := ⟨rfl⟩

theorem Region.sealed_wrapReadOnly {bytes : Bytes} (h : bytes.size ≠ 0) :
    (wrapReadOnly bytes).Sealed :=
  ⟨wellFormed_wrapReadOnly bytes, rfl, h⟩

namespace Tree

/-- Two fills that are not refused, for a quota that is used up and for a chain without members,
and one that is refused, but only after the chain has left its first member. -/
theorem fill_unrejected :
    let T := Tree StandardPolicy (SourceEnd ScriptedInput Empty) 3
    let fill : Action (T × Region) Unit := Source.fill
    let cursor : T → Cursor := fun
      | .chain c => c.cursor
      | _ => .exhausted
    let array : MemorySource := { data := Bytes.ofList [1, 2, 3] }
    let r := Region.wrapReadOnly (Bytes.ofList [9])
    let spent : T := Layer.quota ⟨Layer.endpoint (.memory array), 0⟩
    let exhausted : T := Layer.chain (.new .close [])
    let passing : T := Layer.chain (.new .close
      [Layer.quota ⟨Layer.endpoint (.memory array), 0⟩, Layer.endpoint (.memory array)])
    r.Sealed ∧ (IsOpen spent ∧ (fill.run (spent, r)).answer = .ok ()) ∧
      (IsOpen exhausted ∧ (fill.run (exhausted, r)).answer = .ok ()) ∧
      IsOpen passing ∧ (fill.run (passing, r)).answer = .error (.misuse .readOnlyRegion) ∧
      cursor passing = .active 0 ∧ cursor (fill.run (passing, r)).state.1 = .active 1 := by
  intro T fill cursor array r spent exhausted passing
  refine ⟨Region.sealed_wrapReadOnly (by decide), ⟨rfl, rfl⟩, ⟨?_, rfl⟩, ?_, rfl, rfl, rfl⟩
  · exact ⟨List.forall_mem_nil _, List.forall_mem_nil _⟩
  · refine ⟨List.forall_mem_nil _, List.forall_mem_cons.2 ⟨rfl, ?_⟩⟩
    exact List.forall_mem_cons.2 ⟨rfl, List.forall_mem_nil _⟩

/-- Filling a region that only gives bytes, and still has some, from an open tree is refused,
unless quotas that are used up and members that were left bar every way to an endpoint; then it
succeeds.  In either case the region stays as it is and no byte crosses the tree.  The whole tree
stays as it is, provided that no chain on the way has to leave a barred member first.  Otherwise the
tree is the same but for its cursors and flags, so that no device was asked for anything, and no
position, no quota and no policy has changed. -/
theorem fill_rejected [InputDevice D] {n : Nat} {t : Tree StandardPolicy (SourceEnd D Empty) n}
    (ht : IsOpen t) {r : Region} (hr : r.Sealed) :
    (Source.fill : Action (Tree StandardPolicy (SourceEnd D Empty) n × Region) Unit).Ends (t, r)
      fun answer p =>
        answer = (if barred t then .ok () else .error (.misuse .readOnlyRegion)) ∧ p.2 = r ∧
          (direct t = true → p.1 = t) ∧ bare p.1 = bare t ∧ t.Crossed [] p.1 := by
  have hspared := SparingSource.fill t r hr.toWellFormed hr.readOnly_eq
  refine ((RejectingSource.fill ht hr).and hspared).mono ?_
  rintro answer p ⟨hrejected, hmoved, -⟩
  exact ⟨hrejected.answer_eq, hrejected.region_eq, hrejected.state_eq, hrejected.bare_eq,
    crossed_of_moved hmoved⟩

/-- The first member of one chain was left and is closed; the device behind the second one is not
asked, and nothing changes.  The other chain has to leave its first member, whose quota is used up,
and asks neither device. -/
theorem fill_rejected_of_second :
    let T := Tree StandardPolicy (SourceEnd ScriptedInput Empty) 4
    let fill : Action (T × Region) Unit := Source.fill
    let device {n : Nat} : Tree StandardPolicy (SourceEnd ScriptedInput Empty) (n + 1) :=
      Layer.endpoint (.device { device := ⟨[.data (Bytes.ofList [2, 3])]⟩ })
    let t : T := Layer.quota ⟨Layer.closing (.new .fence (Layer.chain
      ⟨[Layer.endpoint (.memory { data := Bytes.ofList [1], position := 1, closed := true })],
        [device], .close, false⟩)), 5⟩
    let u : T := Layer.traced ⟨Layer.chain (.new .close [Layer.quota ⟨device, 0⟩, device]), "pair"⟩
    let r := Region.wrapReadOnly (Bytes.ofList [9])
    IsOpen t ∧ IsOpen u ∧ r.Sealed ∧
      (fill.Ends (t, r) fun answer p =>
        answer = .error (.misuse .readOnlyRegion) ∧ p.2 = r ∧ p.1 = t) ∧
      fill.Ends (u, r) fun answer p =>
        answer = .error (.misuse .readOnlyRegion) ∧ p.2 = r ∧ bare p.1 = bare u := by
  intro T fill device t u r
  have ht : IsOpen t :=
    ⟨rfl, List.forall_mem_cons.2 ⟨trivial, List.forall_mem_nil _⟩,
      List.forall_mem_cons.2 ⟨rfl, List.forall_mem_nil _⟩⟩
  have hu : IsOpen u :=
    ⟨List.forall_mem_nil _, List.forall_mem_cons.2 ⟨rfl,
      List.forall_mem_cons.2 ⟨rfl, List.forall_mem_nil _⟩⟩⟩
  have hr : r.Sealed := Region.sealed_wrapReadOnly (by decide)
  refine ⟨ht, hu, hr, (fill_rejected ht hr).mono ?_, (fill_rejected hu hr).mono ?_⟩
  · rintro answer p ⟨hanswer, hregion, hstate, -⟩
    exact ⟨hanswer, hregion, hstate rfl⟩
  · rintro answer p ⟨hanswer, hregion, -, hbare, -⟩
    exact ⟨hanswer, hregion, hbare⟩

end Tree

end ByteFlow
