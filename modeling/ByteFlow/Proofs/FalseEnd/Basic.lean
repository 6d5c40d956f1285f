import ByteFlow.Endpoint.Device
import ByteFlow.Proofs.Layer

/-!
# False ends

A device error of two kinds is taken for an end of the stream, see `Fault.ofIo`.  A fill is
prepared for the one kind and a drain for the other, and both come to a quiet end then.  But
a read can fail with the kind that belongs to writing, a write with the kind that belongs to
reading, and a flush with either.  Such an error is handed on as an end of the stream although
nothing has come to an end, and neither a chain nor a caller can tell the difference.

To say that this is all that can go wrong, the devices under a stream are watched: a counter
beside each of them goes up with every false end.  A fill or a drain then raises the end of
the stream only while the counters go up.

## Main definitions

* `Watched δ` — a device with a count of its false ends.
* `falseEnds s` — the counts of all devices under a stream together.
* `Counts`, `Accounts` — operations that lower no count, and that moreover raise the end of
  the stream only for a false end.
* `AccountedSource`, `AccountedSink` — streams whose bulk operations are of this kind.
-/

namespace ByteFlow

open ByteFlow.Action

variable {σ α β δ : Type}

/-! ## Watching a device -/

/-- A device with the number of its false ends so far. -/
structure Watched (δ : Type) where
  device : δ
  falseEnds : Nat

/-- Whether a device's answer is an error of one of the kinds, as a number. -/
def tally (kinds : List IoKind) : Except IoError α → Nat
  | .ok _ => 0
  | .error e => if e.kind ∈ kinds then 1 else 0

instance [InputDevice δ] : InputDevice (Watched δ) where
  read room w :=
    let (given, device) := InputDevice.read room w.device
    (given, ⟨device, w.falseEnds + tally [.writeZero] given⟩)
  patience w := InputDevice.patience w.device
  read_size_le h := by
    obtain ⟨hgiven, rfl⟩ := Prod.mk.inj h
    exact InputDevice.read_size_le (Prod.ext hgiven rfl)
  patience_read_le room w := InputDevice.patience_read_le room w.device
  patience_interrupted h hkind := by
    obtain ⟨hgiven, rfl⟩ := Prod.mk.inj h
    exact InputDevice.patience_interrupted (Prod.ext hgiven rfl) hkind

instance [OutputDevice δ] : OutputDevice (Watched δ) where
  write offered w :=
    let (taken, device) := OutputDevice.write offered w.device
    (taken, ⟨device, w.falseEnds + tally [.unexpectedEof] taken⟩)
  flush w :=
    let (answer, device) := OutputDevice.flush w.device
    (answer, ⟨device, w.falseEnds + tally [.unexpectedEof, .writeZero] answer⟩)
  patience w := OutputDevice.patience w.device
  write_le h := by
    obtain ⟨htaken, rfl⟩ := Prod.mk.inj h
    exact OutputDevice.write_le (Prod.ext htaken rfl)
  patience_write_le offered w := OutputDevice.patience_write_le offered w.device
  patience_interrupted h hkind := by
    obtain ⟨htaken, rfl⟩ := Prod.mk.inj h
    exact OutputDevice.patience_interrupted (Prod.ext htaken rfl) hkind

/-- Streams over watched devices. -/
class FalseEnds (σ : Type) where
  /-- How many false ends the devices under the stream had so far. -/
  falseEnds : σ → Nat

export FalseEnds (falseEnds)

/-! ## Kinds of operations -/

/-- What is beside a stream has no devices. -/
instance [FalseEnds σ] {ρ : Type} : FalseEnds (σ × ρ) where
  falseEnds p := falseEnds p.1

section Kinds

variable [FalseEnds σ]

/-- No count is lowered. -/
def Counts (x : Action σ α) : Prop := ∀ s, x.Ends s fun _ t => falseEnds s ≤ falseEnds t

/-- From `s` to `t` no count was lowered, and some count has gone up if the answer is the end of
the stream. -/
def Accounted (s : σ) (answer : Except Fault α) (t : σ) : Prop :=
  falseEnds s ≤ falseEnds t ∧ (answer = .error .endOfStream → falseEnds s < falseEnds t)

/-- The end of the stream is raised only for a false end. -/
def Accounts (x : Action σ α) : Prop := ∀ s, x.Ends s fun answer t => Accounted s answer t

theorem Accounts.counts {x : Action σ α} (h : Accounts x) : Counts x := fun s => (h s).1

/-- Any other answer needs no false end. -/
theorem Accounted.of_ne {s t : σ} {answer : Except Fault α} (hle : falseEnds s ≤ falseEnds t)
    (h : answer ≠ .error .endOfStream) : Accounted s answer t :=
  ⟨hle, fun heq => absurd heq h⟩

theorem Accounted.ok {s t : σ} {a : α} (hle : falseEnds s ≤ falseEnds t) :
    Accounted s (.ok a) t :=
  .of_ne hle nofun

/-- What was accounted for goes on to be. -/
theorem Accounted.of_le {s t u : σ} {answer : Except Fault α} (hst : falseEnds s ≤ falseEnds t)
    (h : Accounted t answer u) : Accounted s answer u := by
  refine ⟨Nat.le_trans hst h.1, fun heq => ?_⟩
  exact Nat.lt_of_le_of_lt hst (h.2 heq)

/-- An answer can be handed on later. -/
theorem Accounted.trans_le {s t u : σ} {answer : Except Fault α} (h : Accounted s answer t)
    (htu : falseEnds t ≤ falseEnds u) : Accounted s answer u := by
  refine ⟨Nat.le_trans h.1 htu, fun heq => ?_⟩
  exact Nat.lt_of_lt_of_le (h.2 heq) htu

theorem Accounted.error {s t : σ} {fault : Fault}
    (h : Accounted s (.error fault : Except Fault α) t) :
    Accounted s (.error fault : Except Fault β) t := by
  refine ⟨h.1, fun heq => h.2 ?_⟩
  cases heq
  rfl

theorem accounts_pure (a : α) : Accounts (pure a : Action σ α) :=
  fun _ => .ok (Nat.le_refl _)

theorem accounts_gets (f : σ → α) : Accounts (gets f) :=
  fun _ => .ok (Nat.le_refl _)

theorem Accounts.bind {x : Action σ α} {f : α → Action σ β} (hx : Accounts x)
    (hf : ∀ a, Accounts (f a)) : Accounts (x >>= f) := by
  intro s
  rw [ends_bind]
  refine (hx s).mono ?_
  intro answer t ht
  cases answer with
  | error fault => exact ht.error
  | ok a => exact (hf a t).mono fun _ _ h => .of_le ht.1 h

theorem Accounts.repeatUntil {body : Action σ (Option α)} {otherwise : Action σ α}
    (hbody : Accounts body) (hotherwise : Accounts otherwise) (n : Nat) :
    Accounts (Action.repeatUntil n body otherwise) := by
  induction n with
  | zero =>
    rw [repeatUntil_zero]
    exact hotherwise
  | succ n ih =>
    rw [repeatUntil_succ]
    refine hbody.bind fun answer => ?_
    cases answer with
    | none => exact ih
    | some a => exact accounts_pure a

theorem Counts.bind {x : Action σ α} {f : α → Action σ β} (hx : Counts x)
    (hf : ∀ a, Counts (f a)) : Counts (x >>= f) := by
  intro s
  rw [ends_bind]
  refine (hx s).mono ?_
  intro answer t ht
  cases answer with
  | error fault => exact ht
  | ok a => exact (hf a t).mono fun _ _ h => Nat.le_trans ht h

theorem Counts.repeatUntil {body : Action σ (Option α)} {otherwise : Action σ α}
    (hbody : Counts body) (hotherwise : Counts otherwise) (n : Nat) :
    Counts (Action.repeatUntil n body otherwise) := by
  induction n with
  | zero =>
    rw [repeatUntil_zero]
    exact hotherwise
  | succ n ih =>
    rw [repeatUntil_succ]
    refine hbody.bind fun answer => ?_
    cases answer with
    | none => exact ih
    | some a => exact (accounts_pure a).counts

end Kinds

/-- A source whose fill raises the end of the stream only for a false end. -/
class AccountedSource (σ : Type) [Source σ] [FalseEnds σ] : Prop where
  close : Accounts (Closeable.close : Action σ Unit)
  fill : Accounts (Source.fill : Action (σ × Region) Unit)

/-- A sink whose drain, flush and closing raise the end of the stream only for a false end. -/
class AccountedSink (σ : Type) [Sink σ] [FalseEnds σ] : Prop where
  close : Accounts (Closeable.close : Action σ Unit)
  flush : Accounts (Sink.flush : Action σ Unit)
  drain : Accounts (Sink.drain : Action (σ × Region) Unit)
  writeU8 : ∀ v, Counts (Sink.writeU8 v : Action σ Unit)

/-- Policies that raise the end of the stream only for a false end. -/
class AccountedPolicy (P σ : Type) [ClosePolicy P σ] [FalseEnds σ] : Prop where
  ends_onClose : ∀ (policy : P) (s : σ),
    (ClosePolicy.onClose : Action (P × σ) Bool).Ends (policy, s) fun answer p =>
      Accounted s answer p.2

theorem StandardPolicy.ends_apply_of_accounts [Closeable σ] [FalseEnds σ]
    (h : Accounts (Closeable.close : Action σ Unit)) (policy : StandardPolicy) (s : σ) :
    (apply : Action (StandardPolicy × σ) Bool).Ends (policy, s) fun answer p =>
      Accounted s answer p.2 := by
  rw [ends_apply]
  cases policy with
  | close =>
    refine (h s).mono ?_
    intro answer t ht
    cases answer with
    | error fault => exact ht.error
    | ok _ => exact .ok ht.1
  | leaveOpen => exact .ok (Nat.le_refl _)
  | fence => exact .ok (Nat.le_refl _)

instance [Source σ] [FalseEnds σ] [AccountedSource σ] : AccountedPolicy StandardPolicy σ where
  ends_onClose := StandardPolicy.ends_apply_of_accounts AccountedSource.close

instance [Sink σ] [FalseEnds σ] [AccountedSink σ] : AccountedPolicy StandardPolicy σ where
  ends_onClose := StandardPolicy.ends_apply_of_accounts AccountedSink.close

end ByteFlow
