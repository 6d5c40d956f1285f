import ByteFlow.Policy
import ByteFlow.Sink.Basic

/-!
# Chains

A chain is a list of streams used one after the other as if they were one.  The
active member is the first of the ones ahead.  When it is exhausted it is settled
(a sink is flushed, a source needs nothing), the close policy is run on it, and it
joins the members that were left.  This happens once to each member, since a
member that was left is never ahead again.

Closing a chain leaves all members that are still ahead, whatever fails on the
way, and then closes the last member of all, whatever the policy made of it.

## Main definitions

* `Chain` — the members left and the members ahead, with the policy.
* `Chain.leave` — the step from one member to the next.
* `Chain.pull` — one operation on the first member that is not exhausted.
* `Chain.spread` — a bulk operation over as many members as it takes.
* `Chain.finish` — closing.
-/

namespace ByteFlow

open ByteFlow.Action

/-- Streams used one after the other. -/
structure Chain (P σ : Type) where
  /-- The members that were left, the latest one first. -/
  left : List σ
  /-- The members that were not left, the active one first. -/
  ahead : List σ
  policy : P
  closed : Bool
  deriving DecidableEq

namespace Chain

variable {P σ ρ α : Type}

/-- A chain at its first member. -/
def new (policy : P) (members : List σ) : Chain P σ := ⟨[], members, policy, false⟩

/-- All members in order. -/
def members (c : Chain P σ) : List σ := c.left.reverse ++ c.ahead

/-- Which member is active. -/
def cursor (c : Chain P σ) : Cursor :=
  match c.ahead with
  | [] => .exhausted
  | _ :: _ => .active c.left.length

/-- Whether every member was left. -/
def exhausted (c : Chain P σ) : Bool := c.ahead.isEmpty

/-- The members' preferences taken together, in order. -/
def preference (ofMember : σ → Preference) (c : Chain P σ) : Preference :=
  Preference.negotiateAll (c.members.map ofMember)

/-! ## Leaving a member -/

/-- Leave the active member.  The policy is run even if settling the member failed,
and the chain moves on even if both did; the earlier fault is the answer. -/
def leave [ClosePolicy P σ] (settle : Action σ Unit) : Action (Chain P σ) Unit :=
  .of fun ⟨left, ahead, policy, closed⟩ =>
    match ahead with
    | [] => ⟨.ok (), ⟨left, [], policy, closed⟩, #[]⟩
    | m :: rest =>
      let position := left.length + 1
      let total := position + rest.length
      let next := if rest.isEmpty then .exhausted else .active position
      match settle.run m with
      | ⟨settled, m, log⟩ =>
        match ClosePolicy.onClose.run (policy, m) with
        | ⟨judged, (policy, m), more⟩ =>
          ⟨settled.bind fun _ => judged.map fun _ => (), ⟨m :: left, rest, policy, closed⟩,
            #[.memberLeft position total next] ++ log ++ more⟩

/-- An operation on the active member; an exhausted chain has none. -/
def onActive (x : Action σ α) : Action (Chain P σ) α :=
  .of fun ⟨left, ahead, policy, closed⟩ =>
    match ahead with
    | [] => ⟨.error .endOfStream, ⟨left, [], policy, closed⟩, #[]⟩
    | m :: rest => (x.run m).mapState fun m => ⟨left, m :: rest, policy, closed⟩

/-- An operation on the active member and on something beside the chain. -/
def onActiveWith (x : Action (σ × ρ) α) : Action (Chain P σ × ρ) α :=
  .of fun (⟨left, ahead, policy, closed⟩, rest) =>
    match ahead with
    | [] => ⟨.error .endOfStream, (⟨left, [], policy, closed⟩, rest), #[]⟩
    | m :: others =>
      (x.run (m, rest)).mapState fun (m, rest) => (⟨left, m :: others, policy, closed⟩, rest)

/-! ## Data operations -/

/-- One operation on the first member that is not exhausted.  A member that reports
the end of the stream is left and the next one is asked; every other fault is the
answer. -/
def pull [ClosePolicy P σ] (settle : Action σ Unit) (x : Action σ α) : Action (Chain P σ) α := do
  let ahead ← gets fun c => c.ahead.length
  repeatUntil ahead (do
    match ← attempt (onActive x) with
    | .ok a => pure (some a)
    | .error .endOfStream =>
      leave settle
      pure none
    | .error fault => fail fault) (fail .endOfStream)

/-- A bulk operation over as many members as it takes.  A member that leaves room in
the window is exhausted. -/
def spread [ClosePolicy P σ] (settle : Action σ Unit) (bulk : Action (σ × Region) Unit) :
    Action (Chain P σ × Region) Unit := do
  let ahead ← gets fun (c, _) => c.ahead.length
  repeatUntil ahead (do
    if ← gets fun (_, region) => region.hasRemaining then
      onActiveWith bulk
      if ← gets fun (_, region) => region.hasRemaining then
        onFirst (leave settle)
        pure none
      else
        pure (some ())
    else
      pure (some ())) (pure ())

/-! ## Closing -/

/-- Leave `n` members and answer the earliest fault, with `first` as the one known so
far. -/
def leaveEach [ClosePolicy P σ] (settle : Action σ Unit) :
    (n : Nat) → (first : Option Fault) → Action (Chain P σ) (Option Fault)
  | 0, first => pure first
  | n + 1, first => do
    match ← attempt (leave settle) with
    | .ok _ => leaveEach settle n first
    | .error fault => leaveEach settle n (first.or (some fault))

/-- Close the last member of an exhausted chain; a chain without members has none. -/
def closeLast (close : Action σ Unit) : Action (Chain P σ) Unit :=
  .of fun ⟨left, ahead, policy, closed⟩ =>
    match left with
    | [] => ⟨.ok (), ⟨[], ahead, policy, closed⟩, #[]⟩
    | last :: earlier =>
      ((close.run last).mapState fun last => ⟨last :: earlier, ahead, policy, closed⟩).after
        #[.closingLast (earlier.length + 1)]

/-- Close the chain, unless that was done before: leave every member, then close the
last one.  Nothing stops on a fault, and the earliest one is the answer. -/
def finish [ClosePolicy P σ] (settle close : Action σ Unit) : Action (Chain P σ) Unit := do
  if ← gets Chain.closed then
    pure ()
  else
    modify fun c => { c with closed := true }
    let ahead ← gets fun c => c.ahead.length
    let first ← leaveEach settle ahead none
    match first, ← attempt (closeLast close) with
    | some fault, _ => fail fault
    | none, .error fault => fail fault
    | none, .ok _ => pure ()

end Chain

variable {P σ : Type}

instance [Source σ] [ClosePolicy P σ] : Source (Chain P σ) where
  close := Chain.finish (pure ()) Closeable.close
  readU8 := Chain.pull (pure ()) Source.readU8
  preference := Chain.preference Source.preference
  readBytes := Source.fillCompletely (Chain.spread (pure ()) Source.fill)
  fill := Chain.spread (pure ()) Source.fill

instance [Supply σ] : Supply (Chain P σ) where
  supply := fun c => c.ahead.foldr (fun m others => Supply.supply m + others) 0

instance [Sink σ] [ClosePolicy P σ] : Sink (Chain P σ) where
  close := Chain.finish Sink.flush Closeable.close
  writeU8 := fun v => Chain.pull Sink.flush (Sink.writeU8 v)
  preference := Chain.preference Sink.preference
  flush := do
    if ← gets Chain.exhausted then pure () else Chain.onActive Sink.flush
  writeBytes := Sink.drainCompletely (Chain.spread Sink.flush Sink.drain)
  drain := Chain.spread Sink.flush Sink.drain

end ByteFlow
