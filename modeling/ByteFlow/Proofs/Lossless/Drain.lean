import ByteFlow.Proofs.Lossless.Basic
import ByteFlow.Scripted.Device

/-!
# A byte leaves a region once it was taken

A drain may fail anywhere, and after any number of bytes: in a device that takes a few of them
and then breaks off, or in a member of a chain that is full and cannot be flushed.  The window
has moved past those bytes that an endpoint has taken, and the region is otherwise as it was.

So a drain may be repeated whatever it answered, and goes on where it stopped.

## Main definitions

* `Sink.drains` — the same region drained a number of times, whatever happens.
* `Tree.drain_lossless` — what one drain of any tree leaves, and what any number of them do.
-/

namespace ByteFlow

open ByteFlow.Action

variable {E T σ : Type}

/-! ## Drains of the same region -/

/-- Drain the region a number of times, whatever happens. -/
def Sink.drains [Sink σ] : Nat → Action (σ × Region) Unit
  | 0 => pure ()
  | n + 1 => do
    let _ ← attempt Sink.drain
    drains n

section Drains

variable [Sink σ] [Meter σ] [MeteredSink σ]

/-- Drains that follow each other move the window as one drain does. -/
theorem Sink.ends_drains (n : Nat) (s : σ) {r : Region} (hr : r.WellFormed) :
    (drains n).Ends (s, r) fun _ p => Drained s r p := by
  induction n generalizing s r with
  | zero => exact Drained.refl s r
  | succ n ih =>
    rw [drains, ends_attempt_bind]
    refine (MeteredSink.drain s r hr).mono ?_
    intro answer p hp
    exact (ih p.1 (hp.wellFormed hr)).mono fun _ q hq => hp.trans hq

end Drains

/-! ## Trees -/

namespace Tree

variable [OutputDevice E] [Sink T] {n : Nat} {t : Tree StandardPolicy (SinkEnd E T) n}
  {r : Region}

/-- What went through left the region, and the bytes that left it crossed the tree. -/
theorem released_of_drained (hr : r.WellFormed) {p : Tree StandardPolicy (SinkEnd E T) n × Region}
    (h : Drained t r p) : ∃ bs, t.Crossed bs p.1 ∧ r.Released bs p.2 := by
  obtain ⟨k, hk, hmoved, hp⟩ := h
  rw [hp]
  exact ⟨_, crossed_of_moved hmoved, hr.released hk⟩

/-- Whatever a drain of a tree answers, its region differs from the one it was given in the place
of the window alone, and the bytes that the window was moved past are those that crossed the
tree.  The same holds of any number of drains in a row, whatever each of them answers: no byte is
lost between two of them, and none crosses the tree twice. -/
theorem drain_lossless [PlainSink T] (t : Tree StandardPolicy (SinkEnd E T) n)
    (hr : r.WellFormed) :
    (Sink.drain : Action (Tree StandardPolicy (SinkEnd E T) n × Region) Unit).Ends (t, r)
      (fun _ p => ∃ bs, t.Crossed bs p.1 ∧ r.Released bs p.2) ∧
    ∀ k, (Sink.drains k).Ends (t, r) fun _ p => ∃ bs, t.Crossed bs p.1 ∧ r.Released bs p.2 :=
  ⟨(MeteredSink.drain t r hr).mono fun _ _ hp => released_of_drained hr hp,
    fun k => (Sink.ends_drains k t hr).mono fun _ _ hp => released_of_drained hr hp⟩

/-- The device of the first member takes a byte, breaks off, takes another one, and is then full;
it cannot be flushed when it is left.  The drains after that go on with the second member, which
fails once, too. -/
theorem drain_lossless_of_faults :
    let S := Tree StandardPolicy (SinkEnd ScriptedOutput FaultySink) 4
    let broken : IoError := ⟨.brokenPipe, "broken"⟩
    let script := [.limit 1, .fault broken, .limit 1, .limit 0]
    let t : S := Layer.quota ⟨Layer.chain (.new .close
      [Layer.quota ⟨Layer.endpoint (.device
          { device := ⟨none, script, [some broken], ByteArray.empty, ByteArray.empty⟩ }), 5⟩,
        Layer.endpoint (.outside { traps := [⟨1, .corrupt .loneSurrogate⟩] })]), 10⟩
    let r := Region.wrapReadOnly (Bytes.ofList [1, 2, 3, 4, 5])
    let drain : Action (S × Region) Unit := Sink.drain
    let drains : Action (S × Region) Unit := Sink.drains 4
    let taken : SinkEnd ScriptedOutput FaultySink → List UInt8 := fun
      | .device s => s.device.flushed.list ++ s.device.pending.list
      | .outside s => s.written.list
      | _ => []
    ((drain.run (t, r)).answer = .error (.io broken) ∧
      t.Crossed [1] (drain.run (t, r)).state.1 ∧ r.Released [1] (drain.run (t, r)).state.2) ∧
    t.Crossed [1, 2, 3, 4, 5] (drains.run (t, r)).state.1 ∧
      r.Released [1, 2, 3, 4, 5] (drains.run (t, r)).state.2 ∧
      (drains.run (t, r)).state.1.leaves.map taken = [[1, 2], [3, 4, 5]] := by
  intro S broken script t r drain drains taken
  obtain ⟨hdrain, hdrains⟩ := drain_lossless t (Region.wellFormed_wrapReadOnly _)
  have hanswer : (drain.run (t, r)).answer = .error (.io broken) := by decide +kernel
  have hposition : (drain.run (t, r)).state.2.position = 1 := by decide +kernel
  have hend : (drains.run (t, r)).state.2.position = 5 := by decide +kernel
  have htaken : (drains.run (t, r)).state.1.leaves.map taken = [[1, 2], [3, 4, 5]] := by
    decide +kernel
  have hall := hdrains 4
  -- what the runs leave is known by now, and should not be computed again
  rw [Ends] at hdrain hall
  generalize drain.run (t, r) = first at hanswer hposition hdrain ⊢
  generalize drains.run (t, r) = last at hend htaken hall ⊢
  obtain ⟨bs, hcrossed, hreleased⟩ := hdrain
  obtain ⟨all, hcrossedAll, hreleasedAll⟩ := hall
  have hbytes : r.between r.position first.state.2.position = [1] := by
    rw [hposition]
    rfl
  have hrest : r.between r.position last.state.2.position = [1, 2, 3, 4, 5] := by
    rw [hend]
    rfl
  obtain rfl := hreleased.between.symm.trans hbytes
  obtain rfl := hreleasedAll.between.symm.trans hrest
  exact ⟨⟨hanswer, hcrossed, hreleased⟩, hcrossedAll, hreleasedAll, htaken⟩

end Tree

end ByteFlow
