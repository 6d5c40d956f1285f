import ByteFlow.Proofs.Meter.Endpoint

/-!
# Bulk reads, byte by byte

A source may bring bulk operations of its own: a slice is copied, a device is asked for as
much as there is room for, a request is narrowed to a quota or handed from one member of a
chain to the next.  All of them come to the same as reading one byte after the other, also
when something fails on the way.

This is stated as one step.  A bulk operation on a window with room reads one byte, and goes
on with the rest of the window unless that is full by now.  A fault stops it, and only the
end of the stream may be put up with.  Two operations that take the same step do the same,
and the derived operations of `Bytewise` take that step.

## Main definitions

* `Action.Agree` — operations that answer the same and leave the same.
* `Stepwise atEnd next bulk` — the bulk operation takes the step with `next`, and answers
  `atEnd` at the end of the stream.
* `Stepwise.ends_iff`, `Stepwise.agree` — two stepwise operations do the same.
* `Stepwise.lift` — a stream that hands its operations on takes the steps of the one under it.
* `StepwiseSource` — sources with stepwise bulk operations.
-/

namespace ByteFlow

open ByteFlow.Action

variable {σ τ α : Type}

/-- Both operations answer the same and leave the same; the traces may differ. -/
def Action.Agree (x y : Action σ α) (s : σ) : Prop :=
  x.Ends s fun answer t => answer = (y.run s).answer ∧ t = (y.run s).state

/-! ## One step -/

/-- What a bulk operation answers to a fault, given what it answers at the end of the
stream. -/
def atFault (atEnd : Except Fault Unit) : Fault → Except Fault Unit
  | .endOfStream => atEnd
  | fault => .error fault

theorem atFault_of_ne {fault : Fault} (h : fault ≠ .endOfStream) (atEnd : Except Fault Unit) :
    atFault atEnd fault = .error fault := by
  cases fault <;> first | rfl | exact absurd rfl h

/-- Here the bulk operation reads one byte and goes on with the rest of the window. -/
def StepsAt (atEnd : Except Fault Unit) (next : Action σ UInt8) (bulk : Action (σ × Region) Unit)
    (s : σ) (r : Region) : Prop :=
  ∀ Q : Except Fault Unit → σ × Region → Prop, bulk.Ends (s, r) Q ↔
    next.Ends s fun answer t =>
      match answer with
      | .ok b =>
        if (r.receive [b]).remaining = 0 then Q (.ok ()) (t, r.receive [b])
        else bulk.Ends (t, r.receive [b]) Q
      | .error fault => Q (atFault atEnd fault) (t, r)

/-- The bulk operation reads one byte and goes on with the rest of the window, wherever there
is room for a byte. -/
def Stepwise (atEnd : Except Fault Unit) (next : Action σ UInt8)
    (bulk : Action (σ × Region) Unit) : Prop :=
  ∀ (s : σ) (r : Region), r.Writable → r.remaining ≠ 0 → StepsAt atEnd next bulk s r

namespace Stepwise

variable {atEnd : Except Fault Unit} {next : Action σ UInt8} {bulk bulk' : Action (σ × Region) Unit}

/-- Two operations that take the same steps do the same. -/
theorem ends_iff (h : Stepwise atEnd next bulk) (h' : Stepwise atEnd next bulk') {r : Region}
    (hr : r.Writable) (hroom : r.remaining ≠ 0) (s : σ)
    (Q : Except Fault Unit → σ × Region → Prop) : bulk.Ends (s, r) Q ↔ bulk'.Ends (s, r) Q := by
  generalize hn : r.remaining = n
  induction n generalizing s r with
  | zero => exact absurd hn hroom
  | succ n ih =>
    rw [h s r hr hroom Q, h' s r hr hroom Q]
    refine ends_congr fun answer t => ?_
    cases answer with
    | error fault => rfl
    | ok b =>
      by_cases hfull : (r.receive [b]).remaining = 0
      · simp only [hfull, if_true]
      · simp only [hfull, if_false]
        refine ih (hr.receive_one hroom b) hfull t ?_
        rw [Region.remaining_receive_one]
        omega

theorem agree (h : Stepwise atEnd next bulk) (h' : Stepwise atEnd next bulk') {r : Region}
    (hr : r.Writable) (hroom : r.remaining ≠ 0) (s : σ) : bulk.Agree bulk' (s, r) :=
  (h.ends_iff h' hr hroom s _).mpr ⟨rfl, rfl⟩

/-- The window never moves back. -/
theorem ends_position_le (h : Stepwise atEnd next bulk) {r : Region} (hr : r.Writable)
    (hroom : r.remaining ≠ 0) (s : σ) :
    bulk.Ends (s, r) fun _ p => r.position ≤ p.2.position := by
  generalize hn : r.remaining = n
  induction n generalizing s r with
  | zero => exact absurd hn hroom
  | succ n ih =>
    rw [h s r hr hroom _]
    refine .of_forall fun answer t => ?_
    cases answer with
    | error fault => exact Nat.le_refl _
    | ok b =>
      have hposition : (r.receive [b]).position = r.position + 1 := rfl
      by_cases hfull : (r.receive [b]).remaining = 0
      · simp only [hfull, if_true]
        omega
      · simp only [hfull, if_false]
        have hcount : (r.receive [b]).remaining = n := by
          rw [Region.remaining_receive_one]
          omega
        refine (ih (hr.receive_one hroom b) hfull t hcount).mono ?_
        intro _ p hp
        omega

/-- A fill that is stepwise makes a bulk read that is. -/
theorem fillCompletely (h : Stepwise (.ok ()) next bulk) :
    Stepwise (.error .endOfStream) next (Source.fillCompletely bulk) := by
  intro s r hr hroom Q
  rw [Source.ends_fillCompletely, h s r hr hroom _]
  refine ends_congr fun answer t => ?_
  cases answer with
  | ok b =>
    by_cases hfull : (r.receive [b]).remaining = 0
    · simp only [hfull, if_true, Except.bind]
    · simp only [hfull, if_false, Source.ends_fillCompletely]
  | error fault =>
    by_cases hend : fault = .endOfStream
    · subst hend
      simp only [atFault, Except.bind, hroom, if_false]
    · simp only [atFault_of_ne hend, Except.bind]

/-- A stream that hands its operations on takes the steps of the stream under it. -/
theorem lift {next' : Action τ UInt8} {lifted : Action (τ × Region) Unit} (embed : σ → τ)
    (h : Stepwise atEnd next bulk)
    (hnext : ∀ s Q, next'.Ends (embed s) Q ↔ next.Ends s fun answer t => Q answer (embed t))
    (hbulk : ∀ s r Q, lifted.Ends (embed s, r) Q ↔
      bulk.Ends (s, r) fun answer p => Q answer (embed p.1, p.2))
    (s : σ) (r : Region) (hr : r.Writable) (hroom : r.remaining ≠ 0) :
    StepsAt atEnd next' lifted (embed s) r := by
  intro Q
  rw [hbulk, h s r hr hroom _, hnext]
  refine ends_congr fun answer t => ?_
  cases answer with
  | ok b => simp only [hbulk]
  | error fault => rfl

end Stepwise

/-! ## Derived operations -/

/-- A stream that refuses the byte refuses the window. -/
theorem StepsAt.of_refused {atEnd : Except Fault Unit} {next : Action σ UInt8}
    {bulk : Action (σ × Region) Unit} {s : σ} {r : Region} (fault : Fault)
    (hfault : fault ≠ .endOfStream) (hnext : ∀ Q, next.Ends s Q ↔ Q (.error fault) s)
    (hbulk : ∀ Q, bulk.Ends (s, r) Q ↔ Q (.error fault) (s, r)) : StepsAt atEnd next bulk s r := by
  intro Q
  rw [hbulk, hnext]
  simp only [atFault_of_ne hfault]

namespace Bytewise

/-- A loop with one turn for each byte of the window takes the step if its turns do. -/
theorem stepwise_of_loop {atEnd : Except Fault Unit} {next : Action σ UInt8}
    {bulk : Action (σ × Region) Unit} {body : Action (σ × Region) (Option Unit)}
    (hbulk : ∀ s r, r.Writable → ∀ Q,
      bulk.Ends (s, r) Q ↔ (repeatUntil r.remaining body (pure ())).Ends (s, r) Q)
    (hbody : ∀ s r, r.Writable → r.remaining ≠ 0 → ∀ Q, body.Ends (s, r) Q ↔
      next.Ends s fun answer t =>
        match answer with
        | .ok b => Q (.ok none) (t, r.receive [b])
        | .error fault => Q ((atFault atEnd fault).map some) (t, r)) :
    Stepwise atEnd next bulk := by
  intro s r hr hroom Q
  obtain ⟨n, hn⟩ := Nat.exists_eq_succ_of_ne_zero hroom
  rw [hbulk s r hr, hn, ends_repeatUntil_succ, hbody s r hr hroom]
  refine ends_congr fun answer t => ?_
  cases answer with
  | error fault =>
    dsimp only
    cases atFault atEnd fault <;> rfl
  | ok b =>
    have hcount : (r.receive [b]).remaining = n := by
      rw [Region.remaining_receive_one]
      omega
    dsimp only
    rw [hbulk t _ (hr.receive_one hroom b), hcount]
    by_cases hfull : n = 0
    · subst hfull
      simp only [if_true, repeatUntil_zero]
      exact Iff.rfl
    · simp only [hfull, if_false]

theorem stepwise_fill (next : Action σ UInt8) : Stepwise (.ok ()) next (fill next) := by
  apply stepwise_of_loop
  · intro s r hr Q
    rw [fill, ends_bind, ends_onSecond, Region.ends_requireWritable hr.readOnly_eq]
    simp only [ends_gets_bind]
    exact Iff.rfl
  · intro s r hr hroom Q
    rw [ends_attempt_bind, ends_onFirst]
    refine ends_congr fun answer t => ?_
    cases answer with
    | ok b =>
      dsimp only
      rw [ends_bind, ends_onSecond, Region.ends_put hr hroom]
      rfl
    | error fault => cases fault <;> rfl

theorem stepwise_readBytes (next : Action σ UInt8) :
    Stepwise (.error .endOfStream) next (readBytes next) := by
  apply stepwise_of_loop
  · intro s r hr Q
    rw [readBytes, ends_gets_bind]
  · intro s r hr hroom Q
    rw [ends_bind, ends_onFirst]
    refine ends_congr fun answer t => ?_
    cases answer with
    | ok b =>
      dsimp only
      rw [ends_bind, ends_onSecond, Region.ends_put hr hroom]
      rfl
    | error fault => cases fault <;> rfl

end Bytewise

/-- A source whose bulk operations read byte by byte, and that can always be closed. -/
class StepwiseSource (σ : Type) [Source σ] : Prop where
  ends_close : ∀ s, (Closeable.close : Action σ Unit).Ends s fun answer _ => answer = .ok ()
  fill : Stepwise (.ok ()) Source.readU8 (Source.fill : Action (σ × Region) Unit)
  readBytes :
    Stepwise (.error .endOfStream) Source.readU8 (Source.readBytes : Action (σ × Region) Unit)

instance : StepwiseSource Empty where
  ends_close := nofun
  fill := nofun
  readBytes := nofun

/-! ## Memory -/

namespace MemorySource

theorem stepwise_copyInto : Stepwise (.ok ()) next copyInto := by
  intro s r hr hroom
  cases hclosed : s.closed with
  | true =>
    refine .of_refused .closed nofun (fun Q => ?_) (ends_copyInto_of_closed hclosed r)
    rw [Ends, next]
    simp only [hclosed, if_true]
  | false =>
    intro Q
    rw [ends_copyInto hclosed hr.readOnly_eq, ends_next hclosed]
    have hlength : (s.data.list.drop s.position).length = s.data.size - s.position := by
      rw [List.length_drop, Bytes.length_list]
    cases hdrop : s.data.list.drop s.position with
    | nil =>
      rw [hdrop] at hlength
      simp only [← hlength, List.take_nil, Region.receive_nil, List.length_nil, Nat.min_zero,
        Nat.add_zero, atFault]
    | cons b bs =>
      rw [hdrop, List.length_cons] at hlength
      obtain ⟨n, hn⟩ := Nat.exists_eq_succ_of_ne_zero hroom
      have hcount : (r.receive [b]).remaining = n := by
        rw [Region.remaining_receive_one, hn, Nat.succ_sub_one]
      have hrest : s.data.list.drop (s.position + 1) = bs := by
        rw [← List.drop_drop, hdrop]
        rfl
      have hposition : s.position + min r.remaining (s.data.size - s.position) =
          s.position + 1 + min n (s.data.size - (s.position + 1)) := by omega
      have hreceive :
          r.receive ((b :: bs).take r.remaining) = (r.receive [b]).receive (bs.take n) := by
        rw [Region.receive_receive hr.toWellFormed, hn]
        rfl
      dsimp only
      have hmore := ends_copyInto (s := { s with position := s.position + 1 }) hclosed
        (r := r.receive [b]) hr.readOnly_eq Q
      rw [hcount, hmore, hcount, hrest, hposition, hreceive]
      by_cases hfull : n = 0
      · subst hfull
        simp
      · simp only [hfull, if_false]

instance : StepwiseSource MemorySource where
  ends_close _ := rfl
  fill := stepwise_copyInto
  readBytes := stepwise_copyInto.fillCompletely

end MemorySource

end ByteFlow
