import ByteFlow.Proofs.FalseEnd.Endpoint
import ByteFlow.Scripted.Device

/-!
# False ends under a tree

A layer raises the end of the stream in a fill or a drain only where a stream under it did
so, or where a member of a chain did so on being left.  So the counts under a tree tell of
every such end.

## Main definitions

* Instances of `FalseEnds`, `AccountedSource` and `AccountedSink` for the layers.
* `Chain.ends_pull_accounted` — what the end of a chain means for a single byte.
* `Tree.endOfStream_of_falseEnd` — fills and drains raise the end only for a false end.
-/

namespace ByteFlow

open ByteFlow.Action

variable {P L D E σ α : Type}

section Layers

variable [FalseEnds σ]

instance : FalseEnds (Quota σ) where
  falseEnds q := falseEnds q.inner

instance : FalseEnds (Traced σ) where
  falseEnds t := falseEnds t.inner

instance : FalseEnds (Relay σ) where
  falseEnds t := falseEnds t.inner

instance : FalseEnds (Closing P σ) where
  falseEnds c := falseEnds c.inner

/-- How many false ends the devices under some streams had, all in all. -/
def falseEndsOf : List σ → Nat
  | [] => 0
  | s :: streams => falseEnds s + falseEndsOf streams

/-- The members that were left are counted too, for the last one of them is still closed. -/
instance : FalseEnds (Chain P σ) where
  falseEnds c := falseEndsOf c.left + falseEndsOf c.ahead

namespace Quota

theorem accounts_onInner {x : Action σ α} (hx : Accounts x) : Accounts (onInner x) :=
  fun q => hx q.inner

theorem accounts_clipped {bulk : Action (σ × Region) Unit} (hbulk : Accounts bulk) :
    Accounts (clipped bulk) := by
  intro p
  obtain ⟨q, r⟩ := p
  rw [ends_clipped]
  by_cases hnone : q.remaining = 0
  · rw [if_pos hnone]
    exact .ok (Nat.le_refl _)
  · rw [if_neg hnone]
    exact hbulk (q.inner, r.narrowed q.remaining)

theorem counts_counted {x : Action σ α} (hx : Counts x) : Counts (counted x) := by
  intro q
  rw [ends_counted]
  split
  · exact Nat.le_refl _
  · refine (hx q.inner).mono ?_
    intro answer s hle
    cases answer <;> exact hle

instance [Source σ] [AccountedSource σ] : AccountedSource (Quota σ) where
  close := accounts_onInner AccountedSource.close
  fill := accounts_clipped AccountedSource.fill

instance [Sink σ] [AccountedSink σ] : AccountedSink (Quota σ) where
  close := accounts_onInner AccountedSink.close
  flush := accounts_onInner AccountedSink.flush
  drain := accounts_clipped AccountedSink.drain
  writeU8 v := counts_counted (AccountedSink.writeU8 v)

end Quota

instance [Source σ] [AccountedSource σ] : AccountedSource (Traced σ) where
  close t := AccountedSource.close t.inner
  fill p := AccountedSource.fill (p.1.inner, p.2)

instance [Sink σ] [AccountedSink σ] : AccountedSink (Traced σ) where
  close t := AccountedSink.close t.inner
  flush t := AccountedSink.flush t.inner
  drain p := AccountedSink.drain (p.1.inner, p.2)
  writeU8 v t := AccountedSink.writeU8 v t.inner

instance [Source σ] [AccountedSource σ] : AccountedSource (Relay σ) where
  close t := AccountedSource.close t.inner
  fill p := AccountedSource.fill (p.1.inner, p.2)

instance [Sink σ] [AccountedSink σ] : AccountedSink (Relay σ) where
  close t := AccountedSink.close t.inner
  flush t := AccountedSink.flush t.inner
  drain p := AccountedSink.drain (p.1.inner, p.2)
  writeU8 v t := AccountedSink.writeU8 v t.inner

namespace Closing

theorem accounts_whenOpen {x : Action σ α} (hx : Accounts x) :
    Accounts (whenOpen x : Action (Closing P σ) α) := by
  intro c
  cases hclosed : c.closed with
  | false =>
    rw [ends_whenOpen hclosed]
    exact hx c.inner
  | true =>
    rw [ends_whenOpen_of_closed hclosed]
    exact .of_ne (Nat.le_refl _) nofun

theorem counts_whenOpen {x : Action σ α} (hx : Counts x) :
    Counts (whenOpen x : Action (Closing P σ) α) := by
  intro c
  cases hclosed : c.closed with
  | false =>
    rw [ends_whenOpen hclosed]
    exact hx c.inner
  | true =>
    exact (ends_whenOpen_of_closed hclosed x _).mpr (Nat.le_refl _)

theorem accounts_whenOpenWith {bulk : Action (σ × Region) Unit} (hbulk : Accounts bulk) :
    Accounts (whenOpenWith bulk : Action (Closing P σ × Region) Unit) := by
  intro p
  obtain ⟨c, r⟩ := p
  cases hclosed : c.closed with
  | false =>
    rw [ends_whenOpenWith hclosed]
    exact hbulk (c.inner, r)
  | true =>
    rw [ends_whenOpenWith_of_closed hclosed]
    exact .of_ne (Nat.le_refl _) (by simp)

variable [ClosePolicy P σ] [AccountedPolicy P σ]

theorem accounts_shut : Accounts (shut : Action (Closing P σ) Unit) := by
  intro c
  rw [ends_shut]
  by_cases happlied : c.applied = true
  · rw [if_pos happlied]
    exact .ok (Nat.le_refl _)
  · rw [if_neg happlied]
    refine (AccountedPolicy.ends_onClose c.policy c.inner).mono ?_
    intro answer p hp
    cases answer with
    | ok closed => exact .ok hp.1
    | error fault => exact hp.error

instance [Source σ] [AccountedSource σ] : AccountedSource (Closing P σ) where
  close := accounts_shut
  fill := accounts_whenOpenWith AccountedSource.fill

instance [Sink σ] [AccountedSink σ] : AccountedSink (Closing P σ) where
  close := accounts_shut
  flush := accounts_whenOpen AccountedSink.flush
  drain := accounts_whenOpenWith AccountedSink.drain
  writeU8 v := counts_whenOpen (AccountedSink.writeU8 v)

end Closing

namespace Chain

variable {left rest : List σ} {m m' : σ} {policy : P} {closed : Bool}

/-- What happens to the active member happens to the chain. -/
theorem falseEnds_ahead (left rest : List σ) (m : σ) (policy : P) (closed : Bool) :
    falseEnds (⟨left, m :: rest, policy, closed⟩ : Chain P σ) =
      falseEnds m + (falseEndsOf left + falseEndsOf rest) := by
  change falseEndsOf left + (falseEnds m + falseEndsOf rest) = _
  omega

theorem falseEnds_left (left rest : List σ) (m : σ) (policy : P) (closed : Bool) :
    falseEnds (⟨m :: left, rest, policy, closed⟩ : Chain P σ) =
      falseEnds m + (falseEndsOf left + falseEndsOf rest) := by
  change falseEnds m + falseEndsOf left + falseEndsOf rest = _
  omega

theorem accounted_active {answer : Except Fault α} (h : Accounted m answer m') :
    Accounted (⟨left, m :: rest, policy, closed⟩ : Chain P σ) answer
      ⟨left, m' :: rest, policy, closed⟩ := by
  refine ⟨?_, fun heq => ?_⟩
  · rw [falseEnds_ahead, falseEnds_ahead]
    exact Nat.add_le_add_right h.1 _
  · rw [falseEnds_ahead, falseEnds_ahead]
    exact Nat.add_lt_add_right (h.2 heq) _

theorem accounts_onActive {x : Action σ Unit} (hx : Accounts x) (c : Chain P σ)
    (hactive : c.exhausted = false) : (onActive x).Ends c fun answer d => Accounted c answer d := by
  rcases c with ⟨left, _ | ⟨m, rest⟩, policy, closed⟩
  · cases hactive
  · rw [ends_onActive_cons]
    exact (hx m).mono fun _ _ h => accounted_active h

theorem accounts_closeLast {close : Action σ Unit} (hclose : Accounts close) :
    Accounts (closeLast close : Action (Chain P σ) Unit) := by
  intro c
  rcases c with ⟨_ | ⟨last, earlier⟩, ahead, policy, closed⟩
  · exact .ok (Nat.le_refl _)
  · rw [ends_closeLast]
    refine (hclose last).mono ?_
    intro answer last' h
    refine ⟨?_, fun heq => ?_⟩
    · rw [falseEnds_left, falseEnds_left]
      exact Nat.add_le_add_right h.1 _
    · rw [falseEnds_left, falseEnds_left]
      exact Nat.add_lt_add_right (h.2 heq) _

variable [ClosePolicy P σ] [AccountedPolicy P σ] {settle close : Action σ Unit}

/-- The end of the stream comes from settling or from the policy, and both account for it. -/
theorem accounts_leave (hsettle : Accounts settle) :
    Accounts (leave settle : Action (Chain P σ) Unit) := by
  intro c
  rcases c with ⟨left, _ | ⟨m, rest⟩, policy, closed⟩
  · exact .ok (Nat.le_refl _)
  rw [ends_leave_cons]
  refine (hsettle m).mono ?_
  intro settled m' hm
  refine (AccountedPolicy.ends_onClose policy m').mono ?_
  intro judged p hp
  have hmember : Accounted m (settled.bind fun _ => judged.map fun _ => ()) p.2 := by
    cases settled with
    | error fault => exact hm.trans_le hp.1
    | ok _ =>
      refine .of_le hm.1 ?_
      cases judged with
      | error fault => exact hp.error
      | ok _ => exact .ok hp.1
  refine ⟨?_, fun heq => ?_⟩
  · rw [falseEnds_ahead, falseEnds_left]
    exact Nat.add_le_add_right hmember.1 _
  · rw [falseEnds_ahead, falseEnds_left]
    exact Nat.add_lt_add_right (hmember.2 heq) _

theorem ends_leave_accounted (hsettle : Accounts settle) {c : Chain P σ}
    (hahead : c.ahead = m :: rest) :
    (leave settle).Ends c fun moved d => Accounted c moved d ∧ d.ahead = rest := by
  refine (accounts_leave hsettle c).and ?_
  rcases c with ⟨left, ahead, policy, closed⟩
  obtain rfl : ahead = m :: rest := hahead
  rfl

/-- The earliest fault is the end of the stream only for a false end. -/
theorem ends_leaveEach_accounted (hsettle : Accounts settle) (n : Nat) (first : Option Fault)
    (c : Chain P σ) :
    (leaveEach settle n first).Ends c fun answer d => ∃ first', answer = .ok first' ∧
      falseEnds c ≤ falseEnds d ∧
      (first' = some .endOfStream → first = some .endOfStream ∨ falseEnds c < falseEnds d) := by
  induction n generalizing first c with
  | zero => exact ⟨first, rfl, Nat.le_refl _, .inl⟩
  | succ n ih =>
    rw [ends_leaveEach_succ]
    refine (accounts_leave hsettle c).mono ?_
    intro moved d hd
    cases moved with
    | ok _ =>
      refine (ih first d).mono ?_
      intro answer e hends
      obtain ⟨first', rfl, hle, hfalse⟩ := hends
      refine ⟨first', rfl, Nat.le_trans hd.1 hle, fun heq => ?_⟩
      exact (hfalse heq).imp_right (Nat.lt_of_le_of_lt hd.1)
    | error fault =>
      refine (ih (first.or (some fault)) d).mono ?_
      intro answer e hends
      obtain ⟨first', rfl, hle, hfalse⟩ := hends
      refine ⟨first', rfl, Nat.le_trans hd.1 hle, fun heq => ?_⟩
      rcases hfalse heq with hfirst | hlt
      · cases first with
        | some other => exact .inl hfirst
        | none =>
          cases hfirst
          exact .inr (Nat.lt_of_lt_of_le (hd.2 rfl) hle)
      · exact .inr (Nat.lt_of_le_of_lt hd.1 hlt)

theorem accounts_finish (hsettle : Accounts settle) (hclose : Accounts close) :
    Accounts (finish settle close : Action (Chain P σ) Unit) := by
  intro c
  rw [ends_finish]
  by_cases hclosed : c.closed = true
  · rw [if_pos hclosed]
    exact .ok (Nat.le_refl _)
  rw [if_neg hclosed]
  refine (ends_leaveEach_accounted hsettle c.ahead.length none { c with closed := true }).mono ?_
  intro answer d hends
  obtain ⟨first, rfl, hle, hfalse⟩ := hends
  have hcd : falseEnds c ≤ falseEnds d := hle
  cases first with
  | none => exact (accounts_closeLast hclose d).mono fun _ _ h => .of_le hcd h
  | some fault =>
    refine (accounts_closeLast hclose d).mono ?_
    intro answer e he
    refine ⟨Nat.le_trans hcd he.1, fun heq => ?_⟩
    cases heq
    exact Nat.lt_of_lt_of_le ((hfalse rfl).resolve_left nofun) he.1

theorem accounts_spread (hsettle : Accounts settle) {bulk : Action (σ × Region) Unit}
    (hbulk : Accounts bulk) : Accounts (spread settle bulk : Action (Chain P σ × Region) Unit) := by
  intro p
  obtain ⟨c, r⟩ := p
  generalize hahead : c.ahead = ahead
  induction ahead generalizing c r with
  | nil =>
    rcases c with ⟨left, ahead, policy, closed⟩
    obtain rfl : ahead = [] := hahead
    rw [ends_spread_nil]
    exact .ok (Nat.le_refl _)
  | cons m rest ih =>
    rcases c with ⟨left, ahead, policy, closed⟩
    obtain rfl : ahead = m :: rest := hahead
    rw [ends_spread_cons]
    by_cases hroom : r.remaining = 0
    · rw [if_pos hroom]
      exact .ok (Nat.le_refl _)
    rw [if_neg hroom]
    refine (hbulk (m, r)).mono ?_
    intro answer final hends
    obtain ⟨m', q⟩ := final
    have hactive : Accounted (⟨left, m :: rest, policy, closed⟩ : Chain P σ) answer
        ⟨left, m' :: rest, policy, closed⟩ := accounted_active hends
    rcases answer with fault | _
    · exact hactive
    by_cases hfull : q.remaining = 0
    · simp only [hfull, if_true]
      exact hactive
    simp only [hfull, if_false]
    refine (ends_leave_accounted hsettle rfl).mono ?_
    intro moved d hends
    obtain ⟨hd, hrest⟩ := hends
    have hmoved := Accounted.of_le hactive.1 hd
    cases moved with
    | error fault => exact hmoved
    | ok _ =>
      refine (ih d q hrest).mono ?_
      intro answer p hp
      exact .of_le hmoved.1 hp

instance [Source σ] [AccountedSource σ] : AccountedSource (Chain P σ) where
  close := accounts_finish (accounts_pure ()) AccountedSource.close
  fill := accounts_spread (accounts_pure ()) AccountedSource.fill

/-- A byte that is handed on lowers no count, and that the chain is at its end comes from a
false end or from no member being left. -/
theorem ends_pull_accounted (hsettle : Accounts settle) {x : Action σ α} (hx : Counts x)
    (c : Chain P σ) :
    (pull settle x).Ends c fun answer d => falseEnds c ≤ falseEnds d ∧
      (answer = .error .endOfStream → d.exhausted = true ∨ falseEnds c < falseEnds d) := by
  generalize hahead : c.ahead = ahead
  induction ahead generalizing c with
  | nil =>
    rcases c with ⟨left, ahead, policy, closed⟩
    obtain rfl : ahead = [] := hahead
    rw [ends_pull_nil]
    exact ⟨Nat.le_refl _, fun _ => .inl rfl⟩
  | cons m rest ih =>
    rcases c with ⟨left, ahead, policy, closed⟩
    obtain rfl : ahead = m :: rest := hahead
    rw [ends_pull_cons]
    refine (hx m).mono ?_
    intro answer m' hm
    have hactive : falseEnds (⟨left, m :: rest, policy, closed⟩ : Chain P σ) ≤
        falseEnds (⟨left, m' :: rest, policy, closed⟩ : Chain P σ) := by
      rw [falseEnds_ahead, falseEnds_ahead]
      exact Nat.add_le_add_right hm _
    refine ⟨fun hne => ⟨hactive, fun heq => absurd heq hne⟩, fun _ => ?_⟩
    refine (ends_leave_accounted hsettle rfl).mono ?_
    intro moved d hends
    obtain ⟨hd, hrest⟩ := hends
    have hmoved := Accounted.of_le hactive hd
    cases moved with
    | error fault => exact ⟨hmoved.1, fun heq => .inr (hmoved.2 (by cases heq; rfl))⟩
    | ok _ =>
      refine (ih d hrest).mono ?_
      intro answer e hends
      obtain ⟨hle, hend⟩ := hends
      refine ⟨Nat.le_trans hmoved.1 hle, fun heq => ?_⟩
      exact (hend heq).imp_right (Nat.lt_of_le_of_lt hmoved.1)

instance [Sink σ] [AccountedSink σ] : AccountedSink (Chain P σ) where
  close := accounts_finish AccountedSink.flush AccountedSink.close
  flush := by
    intro c
    change (gets exhausted >>= fun exhausted =>
      if exhausted then pure () else onActive Sink.flush).Ends c _
    rw [ends_gets_bind]
    by_cases hexhausted : c.exhausted = true
    · rw [if_pos hexhausted]
      exact .ok (Nat.le_refl _)
    · rw [if_neg hexhausted]
      exact accounts_onActive AccountedSink.flush c (Bool.eq_false_iff.2 hexhausted)
  drain := accounts_spread AccountedSink.flush AccountedSink.drain
  writeU8 v c :=
    (ends_pull_accounted AccountedSink.flush (AccountedSink.writeU8 v) c).mono fun _ _ h => h.1

end Chain

instance [FalseEnds L] : FalseEnds (Layer P L σ) where
  falseEnds
    | .endpoint s => falseEnds s
    | .quota s => falseEnds s
    | .closing s => falseEnds s
    | .chain s => falseEnds s
    | .traced s => falseEnds s
    | .relay s => falseEnds s

instance [Source L] [FalseEnds L] [AccountedSource L] [Source σ] [AccountedSource σ]
    [ClosePolicy P σ] [AccountedPolicy P σ] : AccountedSource (Layer P L σ) where
  close
    | .endpoint s => AccountedSource.close s
    | .quota s => AccountedSource.close s
    | .closing s => AccountedSource.close s
    | .chain s => AccountedSource.close s
    | .traced s => AccountedSource.close s
    | .relay s => AccountedSource.close s
  fill
    | (.endpoint s, r) => AccountedSource.fill (s, r)
    | (.quota s, r) => AccountedSource.fill (s, r)
    | (.closing s, r) => AccountedSource.fill (s, r)
    | (.chain s, r) => AccountedSource.fill (s, r)
    | (.traced s, r) => AccountedSource.fill (s, r)
    | (.relay s, r) => AccountedSource.fill (s, r)

instance [Sink L] [FalseEnds L] [AccountedSink L] [Sink σ] [AccountedSink σ]
    [ClosePolicy P σ] [AccountedPolicy P σ] : AccountedSink (Layer P L σ) where
  close
    | .endpoint s => AccountedSink.close s
    | .quota s => AccountedSink.close s
    | .closing s => AccountedSink.close s
    | .chain s => AccountedSink.close s
    | .traced s => AccountedSink.close s
    | .relay s => AccountedSink.close s
  flush
    | .endpoint s => AccountedSink.flush s
    | .quota s => AccountedSink.flush s
    | .closing s => AccountedSink.flush s
    | .chain s => AccountedSink.flush s
    | .traced s => AccountedSink.flush s
    | .relay s => AccountedSink.flush s
  drain
    | (.endpoint s, r) => AccountedSink.drain (s, r)
    | (.quota s, r) => AccountedSink.drain (s, r)
    | (.closing s, r) => AccountedSink.drain (s, r)
    | (.chain s, r) => AccountedSink.drain (s, r)
    | (.traced s, r) => AccountedSink.drain (s, r)
    | (.relay s, r) => AccountedSink.drain (s, r)
  writeU8 v := fun
    | .endpoint s => AccountedSink.writeU8 v s
    | .quota s => AccountedSink.writeU8 v s
    | .closing s => AccountedSink.writeU8 v s
    | .chain s => AccountedSink.writeU8 v s
    | .traced s => AccountedSink.writeU8 v s
    | .relay s => AccountedSink.writeU8 v s

end Layers

/-! ## Trees -/

namespace Tree

instance instFalseEnds [FalseEnds L] : (n : Nat) → FalseEnds (Tree P L n)
  | 0 => inferInstanceAs (FalseEnds Empty)
  | n + 1 =>
    have := instFalseEnds n
    inferInstanceAs (FalseEnds (Layer P L (Tree P L n)))

instance instAccountedSource [Source L] [FalseEnds L] [AccountedSource L] :
    (n : Nat) → AccountedSource (Tree StandardPolicy L n)
  | 0 => inferInstanceAs (AccountedSource Empty)
  | n + 1 =>
    have := instAccountedSource n
    inferInstanceAs (AccountedSource (Layer StandardPolicy L (Tree StandardPolicy L n)))

instance instAccountedSink [Sink L] [FalseEnds L] [AccountedSink L] :
    (n : Nat) → AccountedSink (Tree StandardPolicy L n)
  | 0 => inferInstanceAs (AccountedSink Empty)
  | n + 1 =>
    have := instAccountedSink n
    inferInstanceAs (AccountedSink (Layer StandardPolicy L (Tree StandardPolicy L n)))

/-- A fill or a drain raises the end of the stream only if a device under the tree has had a
false end meanwhile. -/
theorem endOfStream_of_falseEnd [InputDevice D] [OutputDevice E] {m n : Nat}
    (s : Tree StandardPolicy (SourceEnd (Watched D) Empty) m)
    (t : Tree StandardPolicy (SinkEnd (Watched E) Empty) n) (r : Region) :
    ((Source.fill : Action (Tree StandardPolicy (SourceEnd (Watched D) Empty) m × Region) Unit).Ends
      (s, r) fun answer p => answer = .error .endOfStream → falseEnds s < falseEnds p.1) ∧
    ((Sink.drain : Action (Tree StandardPolicy (SinkEnd (Watched E) Empty) n × Region) Unit).Ends
      (t, r) fun answer p => answer = .error .endOfStream → falseEnds t < falseEnds p.1) :=
  ⟨(AccountedSource.fill (s, r)).2, (AccountedSink.drain (t, r)).2⟩

/-- A read that fails because nothing was written is no end, but a fill raises it as one. -/
theorem endOfStream_of_writeZero :
    let fill : Action (Tree StandardPolicy (SourceEnd ScriptedInput Empty) 1 × Region) Unit :=
      Source.fill
    (fill.run (Layer.endpoint (.device { device := ⟨[.fault ⟨.writeZero, "nothing written"⟩]⟩ }),
      Region.allocate 4 .direct)).answer = .error .endOfStream := by
  rfl

end Tree

end ByteFlow
