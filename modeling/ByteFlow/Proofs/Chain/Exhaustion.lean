import ByteFlow.Proofs.Chain.Verdict
import ByteFlow.Proofs.FalseEnd.Layer

/-!
# Chains at their end

A chain of sinks that takes no more bytes has left all of its members, unless a device under
it has had a false end.  A chain that has left all of its members stays as it is: no call
brings a member back, and no byte reaches one any more.

## Main definitions

* `Chain.Spent` — the chain has left all members, and refuses every byte from now on.
* `Chain.spent_of_exhausted` — it is enough that all members were left.
* `Chain.spent_of_endOfStream` — what it means that a write came to the end of the stream.
-/

namespace ByteFlow

open ByteFlow.Action

variable {P E σ : Type}

namespace Chain

/-- All members were left.  Whatever the chain is called for from now on, it refuses every byte,
and to refuse it changes nothing. -/
def Spent [Sink σ] [ClosePolicy P σ] (c : Chain P σ) : Prop :=
  c.exhausted = true ∧ ∀ calls, (answers SinkCall.perform calls).Ends c fun _ d =>
    d.exhausted = true ∧ ∀ v, (Sink.writeU8 v : Action (Chain P σ) Unit).Ends d fun answer e =>
      answer = .error .endOfStream ∧ e = d

theorem cursor_eq_exhausted {c : Chain P σ} : c.cursor = .exhausted ↔ c.exhausted = true := by
  rcases c with ⟨left, _ | ⟨m, rest⟩, policy, closed⟩
  · exact ⟨fun _ => rfl, fun _ => rfl⟩
  · exact ⟨nofun, nofun⟩

/-- From the end there is no way back. -/
theorem Accepts.of_exhausted {total : Nat} {log : List Contact} {stage : Stage}
    (h : Accepts total (.idle .exhausted) log stage) : stage = .idle .exhausted := by
  induction log with
  | nil => exact (Option.some.inj h).symm
  | cons contact log ih =>
    obtain ⟨between, hnext, hrest⟩ := accepts_cons.1 h
    cases contact with
    | shut i answer =>
      obtain ⟨-, hbetween⟩ := Option.ite_none_right_eq_some.1 hnext
      cases hbetween
      exact ih hrest
    | _ => cases hnext

/-- What comes short of the window has asked all members. -/
theorem ends_spread_short [ClosePolicy P σ] (settle : Action σ Unit)
    (bulk : Action (σ × Region) Unit) (c : Chain P σ) (r : Region) :
    (spread settle bulk).Ends (c, r) fun answer p =>
      answer = .ok () → p.2.remaining ≠ 0 → p.1.exhausted = true := by
  refine ends_spread_of_stops (I := fun _ => True) ?ended (fun m r _ _ => ?bulk)
    (fun _ _ => nofun) c trivial
  case ended =>
    rintro d q (hnone | hzero) - hne
    · rw [exhausted, hnone]
      rfl
    · exact absurd hzero hne
  case bulk => exact .of_forall fun _ _ => ⟨trivial, fun _ _ _ => nofun⟩

section Spent

variable [Sink σ] [ClosePolicy P σ]

theorem ends_writeU8_of_exhausted {c : Chain P σ} (h : c.exhausted = true) (v : UInt8) :
    (Sink.writeU8 v : Action (Chain P σ) Unit).Ends c fun answer d =>
      answer = .error .endOfStream ∧ d = c := by
  rcases c with ⟨left, _ | ⟨m, rest⟩, policy, closed⟩
  · change (pull Sink.flush (Sink.writeU8 v)).Ends _ _
    rw [ends_pull_nil]
    exact ⟨rfl, rfl⟩
  · cases h

/-- A chain that has left all of its members never gets one back. -/
theorem spent_of_exhausted {c : Chain P σ} (h : c.exhausted = true) : Spent c := by
  refine ⟨h, fun calls => ?_⟩
  refine (ends_answers_course SinkCall.conducts calls c).mono ?_
  intro _ d hends
  obtain ⟨log, hlog⟩ := hends
  have haccepts := hlog.accepts
  rw [cursor_eq_exhausted.2 h] at haccepts
  have hcursor : d.cursor = .exhausted := by
    have hstage := haccepts.of_exhausted
    cases hd : d.cursor with
    | exhausted => rfl
    | active i =>
      rw [hd] at hstage
      cases hstage
  have hd := cursor_eq_exhausted.1 hcursor
  exact ⟨hd, ends_writeU8_of_exhausted hd⟩

end Spent

/-- A chain that raises the end of the stream for a write has left all of its members for
good, unless a device under it has had a false end meanwhile. -/
theorem spent_of_endOfStream [OutputDevice E] {n : Nat}
    (c : Chain StandardPolicy (Tree StandardPolicy (SinkEnd (Watched E) Empty) n)) :
    (∀ v, (SinkCall.writeU8 v).perform.Ends c fun answer d =>
      answer = .error .endOfStream → falseEnds d = falseEnds c → Spent d) ∧
    ∀ bytes, (SinkCall.writeBytes bytes).perform.Ends c fun answer d =>
      answer = .error .endOfStream → falseEnds d = falseEnds c → Spent d := by
  refine ⟨fun v => ?_, fun bytes => ?_⟩
  · refine (ends_pull_accounted AccountedSink.flush (AccountedSink.writeU8 v) c).mono ?_
    intro answer d hends heq hsame
    refine spent_of_exhausted ((hends.2 heq).resolve_right ?_)
    omega
  · change (Sink.drainCompletely (spread Sink.flush Sink.drain) bytes).Ends c _
    rw [Sink.ends_drainCompletely]
    refine ((accounts_spread AccountedSink.flush AccountedSink.drain (c, _)).and
      (ends_spread_short Sink.flush Sink.drain c _)).mono ?_
    intro answer p hends heq hsame
    obtain ⟨haccounted, hshort⟩ := hends
    refine spent_of_exhausted ?_
    cases answer with
    | error fault =>
      have hlt : falseEnds c < falseEnds p.1 := haccounted.2 heq
      omega
    | ok _ =>
      refine hshort rfl fun hfull => ?_
      simp [Except.bind, hfull] at heq

/-- An array, a device and a quota take the bytes for which they have room.  The byte after these
finds no member that takes it, whether it comes on its own or with the others, although the device
was written to and flushed on the way. -/
theorem spent_of_endOfStream_of_full :
    let device : Watched ScriptedOutput :=
      ⟨⟨some 2, [.limit 1], [], ByteArray.empty, ByteArray.empty⟩, 0⟩
    let c : Chain StandardPolicy (Tree StandardPolicy (SinkEnd (Watched ScriptedOutput) Empty) 2) :=
      .new .close [Layer.endpoint (.memory { data := Bytes.ofList [0] }),
        Layer.endpoint (.device { device := device }),
        Layer.quota ⟨Layer.endpoint (.growing {}), 1⟩]
    let first := (SinkCall.writeBytes (Bytes.ofList [1, 2, 3, 4])).perform.run c
    let together := (SinkCall.writeBytes (Bytes.ofList [1, 2, 3, 4, 5])).perform.run c
    first.answer = .ok () ∧ first.state.cursor = .active 2 ∧
      Spent ((SinkCall.writeU8 5).perform.run first.state).state ∧ Spent together.state := by
  intro device c first together
  refine ⟨by decide +kernel, by decide +kernel, ?alone, ?together⟩
  case alone =>
    exact (spent_of_endOfStream first.state).1 5 (by decide +kernel) (by decide +kernel)
  case together => exact (spent_of_endOfStream c).2 _ (by decide +kernel) (by decide +kernel)

/-- A flush that fails because nothing was written is taken for the end of the whole chain,
although the next member takes the byte when it is offered again. -/
theorem endOfStream_of_flush :
    let c : Chain StandardPolicy (Tree StandardPolicy (SinkEnd ScriptedOutput Empty) 1) :=
      .new .leaveOpen
        [Layer.endpoint (.device { device := ⟨some 0, [], [some ⟨.writeZero, "flush took nothing"⟩],
            ByteArray.empty, ByteArray.empty⟩ }),
          Layer.endpoint (.growing {})]
    let first := (SinkCall.writeU8 1).perform.run c
    let second := (SinkCall.writeU8 1).perform.run first.state
    first.answer = .error .endOfStream ∧ first.state.exhausted = false ∧
      second.answer = .ok () := by
  refine ⟨rfl, rfl, rfl⟩

end Chain

end ByteFlow
