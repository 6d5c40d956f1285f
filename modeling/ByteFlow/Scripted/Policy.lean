import ByteFlow.Policy

/-!
# Policies that follow a script

A scripted policy does at each call what the next entry of its script says.  It may
write to the stream, close it, and answer or fail as it likes.

## Main definitions

* `PolicyEntry`, `ScriptedPolicy` — what is done at each call.
* `Policy` — a usual policy or a scripted one.
-/

namespace ByteFlow

open ByteFlow.Action

/-- What a scripted policy does at a call. -/
structure PolicyEntry where
  /-- Bytes to write; a source cannot be written to and is spared. -/
  write : Option Bytes := none
  /-- Whether to close the stream. -/
  close : Bool := false
  /-- What to answer. -/
  answer : Except Fault Bool := .ok true

/-- A policy that follows a script. -/
structure ScriptedPolicy where
  script : Array PolicyEntry
  /-- How often the policy was called. -/
  calls : Nat := 0

namespace ScriptedPolicy

variable {σ : Type}

/-- One call, given how bytes are written to the stream.  Past the end of the script
nothing is done, and the answer is yes. -/
def apply [Closeable σ] (write : Bytes → Action σ Unit) : Action (ScriptedPolicy × σ) Bool := do
  let entry ← gets fun (policy, _) => policy.script[policy.calls]?.getD {}
  onFirst (modify fun policy => { policy with calls := policy.calls + 1 })
  if let some bytes := entry.write then
    onSecond (write bytes)
  if entry.close then
    onSecond Closeable.close
  match entry.answer with
  | .ok answer => pure answer
  | .error fault => fail fault

instance : SourcePolicy ScriptedPolicy where
  onClose := apply fun _ => pure ()

instance : SinkPolicy ScriptedPolicy where
  onClose := apply Sink.writeBytes

end ScriptedPolicy

/-- A usual policy or a scripted one. -/
inductive Policy where
  | standard (policy : StandardPolicy)
  | scripted (policy : ScriptedPolicy)

namespace Policy

variable {σ : Type}

/-- One call of whichever policy it is. -/
def apply (standardCall : Action (StandardPolicy × σ) Bool)
    (scriptedCall : Action (ScriptedPolicy × σ) Bool) : Action (Policy × σ) Bool := .of fun
  | (.standard policy, s) =>
    (standardCall.run (policy, s)).mapState fun (policy, s) => (.standard policy, s)
  | (.scripted policy, s) =>
    (scriptedCall.run (policy, s)).mapState fun (policy, s) => (.scripted policy, s)

instance : SourcePolicy Policy where
  onClose := apply SourcePolicy.onClose SourcePolicy.onClose

instance : SinkPolicy Policy where
  onClose := apply SinkPolicy.onClose SinkPolicy.onClose

end Policy

end ByteFlow
