import ByteFlow.Proofs.Keeping

/-!
# What closing and moving on leave alone

Closing a source puts flags up, and a chain that moves on has one member less ahead of it.  Neither
asks a device for anything, moves on in an array, or takes anything from a quota.  To say so in one
equation, flags and cursors are taken out of the state: what is left of a source is what it was
made from, and how far it got with that.

## Main definitions

* `bare s` — the source with all flags down and every chain at its first member.
* `UnmovedClose`, `UnmovedPolicy` — closing, and running a close policy, change nothing else.
* `Chain.keeps_bare_leave` — neither does leaving a member.
-/

namespace ByteFlow

open ByteFlow.Action

variable {D P L S σ : Type}

/-- Sources that can be taken back to before anything was closed or left. -/
class Bare (σ : Type) where
  /-- The source with all flags down and every chain at its first member.  Devices, arrays and the
  positions in them, quotas, policies and labels stay as they are. -/
  bare : σ → σ

export Bare (bare)

/-- Closing changes nothing but flags and cursors. -/
class UnmovedClose (σ : Type) [Closeable σ] [Bare σ] : Prop where
  keeps_close (b : σ) : Keeps (fun s => bare s = b) (Closeable.close : Action σ Unit)

/-- The policy stays as it is, and changes nothing of the source but flags and cursors. -/
class UnmovedPolicy (P σ : Type) [ClosePolicy P σ] [Bare σ] : Prop where
  keeps_onClose (policy : P) (b : σ) :
    Keeps (fun p => p.1 = policy ∧ bare p.2 = b) (ClosePolicy.onClose : Action (P × σ) Bool)

/-! ## Endpoints -/

instance : Bare Empty where
  bare := id

instance : Bare MemorySource where
  bare s := { s with closed := false }

instance : Bare (DeviceSource D) where
  bare s := { s with closed := false }

instance [Bare S] : Bare (SourceEnd D S) where
  bare
    | .memory s => .memory (bare s)
    | .device s => .device (bare s)
    | .outside s => .outside (bare s)

instance : UnmovedClose Empty where
  keeps_close _ s _ := nomatch s

instance : UnmovedClose MemorySource where
  keeps_close _ _ hs := hs

instance [InputDevice D] : UnmovedClose (DeviceSource D) where
  keeps_close _ _ hs := hs

instance [InputDevice D] [Source S] [Bare S] [UnmovedClose S] :
    UnmovedClose (SourceEnd D S) where
  keeps_close b s hs := by
    subst hs
    cases s with
    | memory s =>
      exact (UnmovedClose.keeps_close _ s rfl).mono fun _ _ h => congrArg SourceEnd.memory h
    | device s =>
      exact (UnmovedClose.keeps_close _ s rfl).mono fun _ _ h => congrArg SourceEnd.device h
    | outside s =>
      exact (UnmovedClose.keeps_close _ s rfl).mono fun _ _ h => congrArg SourceEnd.outside h

/-! ## Layers -/

section Layers

variable [Bare σ]

instance : Bare (Quota σ) where
  bare q := { q with inner := bare q.inner }

instance : Bare (Closing P σ) where
  bare c := { c with inner := bare c.inner, applied := false, closed := false }

instance : Bare (Chain P σ) where
  bare c := .new c.policy (c.members.map bare)

instance : Bare (Traced σ) where
  bare t := { t with inner := bare t.inner }

instance : Bare (Relay σ) where
  bare t := { t with inner := bare t.inner }

instance [Bare L] : Bare (Layer P L σ) where
  bare
    | .endpoint s => .endpoint (bare s)
    | .quota s => .quota (bare s)
    | .closing s => .closing (bare s)
    | .chain s => .chain (bare s)
    | .traced s => .traced (bare s)
    | .relay s => .relay (bare s)

variable [Source σ]

/-- The usual policies close the source or leave it alone. -/
instance [UnmovedClose σ] : UnmovedPolicy StandardPolicy σ where
  keeps_onClose policy b := by
    rintro ⟨policy', s⟩ ⟨rfl, hs⟩
    change (StandardPolicy.apply : Action (StandardPolicy × σ) Bool).Ends _ _
    rw [StandardPolicy.ends_apply]
    cases policy' with
    | close => exact (UnmovedClose.keeps_close b s hs).mono fun _ _ h => ⟨rfl, h⟩
    | leaveOpen => exact ⟨rfl, hs⟩
    | fence => exact ⟨rfl, hs⟩

instance [UnmovedClose σ] : UnmovedClose (Quota σ) where
  keeps_close _ q hq :=
    (UnmovedClose.keeps_close _ q.inner rfl).mono fun _ _ h =>
      (congrArg (Quota.mk · q.remaining) h).trans hq

instance [UnmovedClose σ] : UnmovedClose (Traced σ) where
  keeps_close _ t ht :=
    (UnmovedClose.keeps_close _ t.inner rfl).mono fun _ _ h =>
      (congrArg (Traced.mk · t.label) h).trans ht

instance [UnmovedClose σ] : UnmovedClose (Relay σ) where
  keeps_close _ t ht :=
    (UnmovedClose.keeps_close _ t.inner rfl).mono fun _ _ h => (congrArg Relay.mk h).trans ht

variable [ClosePolicy P σ] [UnmovedPolicy P σ]

instance : UnmovedClose (Closing P σ) where
  keeps_close b c hc := by
    subst hc
    change (Closing.shut : Action (Closing P σ) Unit).Ends _ _
    rw [Closing.ends_shut]
    by_cases happlied : c.applied = true
    · rw [if_pos happlied]
    · rw [if_neg happlied]
      refine (UnmovedPolicy.keeps_onClose c.policy _ (c.policy, c.inner) ⟨rfl, rfl⟩).mono ?_
      rintro answer ⟨policy, s⟩ ⟨rfl, hs⟩
      cases answer <;> exact congrArg (Closing.mk · c.policy false false) hs

namespace Chain

omit [Source σ] in
theorem keeps_bare_leave (b : Chain P σ) :
    Keeps (fun c : Chain P σ => bare c = b) (leave (pure ())) := by
  rintro ⟨left, ahead, policy, closed⟩ rfl
  cases ahead with
  | nil => rfl
  | cons m rest =>
    rw [ends_leave_cons, ends_pure]
    refine (UnmovedPolicy.keeps_onClose policy _ (policy, m) ⟨rfl, rfl⟩).mono ?_
    rintro judged ⟨policy', m'⟩ ⟨rfl, hm⟩
    have hm : bare m' = bare m := hm
    simp [bare, members, hm]

omit [ClosePolicy P σ] [UnmovedPolicy P σ] in
theorem keeps_bare_closeLast [UnmovedClose σ] (b : Chain P σ) :
    Keeps (fun c : Chain P σ => bare c = b) (closeLast Closeable.close) := by
  rintro ⟨left, ahead, policy, closed⟩ rfl
  rw [ends_closeLast]
  cases left with
  | nil => rfl
  | cons last earlier =>
    refine (UnmovedClose.keeps_close _ last rfl).mono fun _ last' hlast => ?_
    have hlast : bare last' = bare last := hlast
    simp [bare, members, hlast]

instance [UnmovedClose σ] : UnmovedClose (Chain P σ) where
  keeps_close b _ hc :=
    ends_finish_of_keeps (keeps_bare_leave b) (keeps_bare_closeLast b) (fun _ => hc) hc

end Chain

instance [Source L] [Bare L] [UnmovedClose L] [UnmovedClose σ] : UnmovedClose (Layer P L σ) where
  keeps_close b s hs := by
    subst hs
    cases s with
    | endpoint s =>
      exact (UnmovedClose.keeps_close _ s rfl).mono fun _ _ h => congrArg Layer.endpoint h
    | quota s => exact (UnmovedClose.keeps_close _ s rfl).mono fun _ _ h => congrArg Layer.quota h
    | closing s =>
      exact (UnmovedClose.keeps_close _ s rfl).mono fun _ _ h => congrArg Layer.closing h
    | chain s => exact (UnmovedClose.keeps_close _ s rfl).mono fun _ _ h => congrArg Layer.chain h
    | traced s => exact (UnmovedClose.keeps_close _ s rfl).mono fun _ _ h => congrArg Layer.traced h
    | relay s => exact (UnmovedClose.keeps_close _ s rfl).mono fun _ _ h => congrArg Layer.relay h

end Layers

/-! ## Trees -/

instance Tree.instBare [Bare L] : (n : Nat) → Bare (Tree P L n)
  | 0 => inferInstanceAs (Bare Empty)
  | n + 1 =>
    have := instBare n
    inferInstanceAs (Bare (Layer P L (Tree P L n)))

instance Tree.instUnmovedClose [Source L] [Bare L] [UnmovedClose L] :
    (n : Nat) → UnmovedClose (Tree StandardPolicy L n)
  | 0 => inferInstanceAs (UnmovedClose Empty)
  | n + 1 =>
    have := instUnmovedClose n
    inferInstanceAs (UnmovedClose (Layer StandardPolicy L (Tree StandardPolicy L n)))

end ByteFlow
