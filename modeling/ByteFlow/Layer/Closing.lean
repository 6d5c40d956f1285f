import ByteFlow.Policy
import ByteFlow.Sink.Basic

/-!
# Streams with a close policy

A closing stream runs its policy on the stream under it when it is closed for the
first time, and never again.  The policy's answer becomes its closed flag; a
policy that fails leaves the flag down, and is not run again either.  While the
flag is up no data operation reaches the stream under it.

## Main definitions

* `Closing` — a stream, its policy, and what has become of the policy.
* `Closing.whenOpen`, `Closing.whenOpenWith` — data operations, allowed while the
  flag is down.
* `Closing.shut` — running the policy, once.
-/

namespace ByteFlow

open ByteFlow.Action

/-- A stream with a policy for closing it. -/
structure Closing (P σ : Type) where
  inner : σ
  policy : P
  /-- Whether the policy has been run. -/
  applied : Bool
  /-- Whether the stream counts as closed. -/
  closed : Bool
  deriving DecidableEq

namespace Closing

variable {P σ ρ α : Type}

/-- A stream with a policy that has not been run. -/
def new (policy : P) (s : σ) : Closing P σ := ⟨s, policy, false, false⟩

/-- An operation on the stream under the wrapper, refused once the flag is up. -/
def whenOpen (x : Action σ α) : Action (Closing P σ) α :=
  .of fun ⟨inner, policy, applied, closed⟩ =>
    if closed then ⟨.error .closed, ⟨inner, policy, applied, closed⟩, #[]⟩
    else (x.run inner).mapState fun inner => ⟨inner, policy, applied, closed⟩

/-- An operation on the stream under the wrapper and on something beside it, refused
once the flag is up. -/
def whenOpenWith (x : Action (σ × ρ) α) : Action (Closing P σ × ρ) α :=
  .of fun (⟨inner, policy, applied, closed⟩, rest) =>
    if closed then ⟨.error .closed, (⟨inner, policy, applied, closed⟩, rest), #[]⟩
    else
      (x.run (inner, rest)).mapState fun (inner, rest) =>
        (⟨inner, policy, applied, closed⟩, rest)

/-- Run the policy unless it has been run, and take its answer for the flag. -/
def shut [ClosePolicy P σ] : Action (Closing P σ) Unit :=
  .of fun ⟨inner, policy, applied, closed⟩ =>
    if applied then ⟨.ok (), ⟨inner, policy, applied, closed⟩, #[]⟩
    else
      match ClosePolicy.onClose.run (policy, inner) with
      | ⟨.ok answer, (policy, inner), log⟩ =>
        ⟨.ok (), ⟨inner, policy, true, answer⟩, log.push (.policyApplied answer)⟩
      | ⟨.error fault, (policy, inner), log⟩ =>
        ⟨.error fault, ⟨inner, policy, true, closed⟩, log⟩

end Closing

variable {P σ : Type}

/-- The source with a policy for closing it. -/
def Source.withPolicy [Source σ] (policy : P) (s : σ) : Closing P σ := .new policy s

/-- The sink with a policy for closing it. -/
def Sink.withPolicy [Sink σ] (policy : P) (s : σ) : Closing P σ := .new policy s

instance [Source σ] [ClosePolicy P σ] : Source (Closing P σ) where
  close := Closing.shut
  readU8 := Closing.whenOpen Source.readU8
  preference := fun c => Source.preference c.inner
  bound := fun c => Source.bound c.inner
  readBytes := Closing.whenOpenWith Source.readBytes
  readUnits := fun n => Closing.whenOpenWith (Source.readUnits n)
  fill := Closing.whenOpenWith Source.fill

instance [Supply σ] : Supply (Closing P σ) where
  supply := fun c => Supply.supply c.inner

instance [Sink σ] [ClosePolicy P σ] : Sink (Closing P σ) where
  close := Closing.shut
  writeU8 := fun v => Closing.whenOpen (Sink.writeU8 v)
  preference := fun c => Sink.preference c.inner
  bound := fun c => Sink.bound c.inner
  flush := Closing.whenOpen Sink.flush
  writeBytes := fun bytes => Closing.whenOpen (Sink.writeBytes bytes)
  writeUnits := fun units => Closing.whenOpen (Sink.writeUnits units)
  drain := Closing.whenOpenWith Sink.drain

end ByteFlow
