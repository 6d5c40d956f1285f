import ByteFlow.Proofs.Memory
import ByteFlow.Proofs.Stepwise.Basic

/-!
# Bulk writes, byte by byte

A sink takes the bytes of a window in its own way: it copies them into an array, hands them
to a device, cuts the window down to a quota, or spreads it over the members of a chain.  All
of them come to the same as writing one byte after the other, also when something fails on
the way.

As for sources this is stated as one step.  A bulk write of a window with bytes in it writes
the byte in front, and goes on with the rest of the window unless there is none.  A byte that
was not taken stays in the window.

## Main definitions

* `Region.Shows b rest r` — the window of the region starts with `b`, and `rest` follows.
* `Sink.Stepwise atEnd put bulk` — the bulk operation takes the step with `put`, and answers
  `atEnd` at the end of the stream.
* `Sink.Stepwise.ends_iff` — two stepwise operations do the same.
* `Sink.Piecewise put write` — the bulk write of some bytes is their writes in a row.
* `StepwiseSink` — sinks with stepwise bulk operations.
-/

namespace ByteFlow

open ByteFlow.Action

variable {σ τ : Type}

/-! ## The byte in front -/

namespace Region

/-- The window starts with `b`, and `rest` follows. -/
structure Shows (b : UInt8) (rest : List UInt8) (r : Region) : Prop extends WellFormed r where
  list_window : r.window.list = b :: rest

namespace Shows

variable {r : Region} {b c : UInt8} {rest : List UInt8}

theorem remaining_eq (h : r.Shows b rest) : r.remaining = rest.length + 1 := by
  rw [← h.toWellFormed.length_window, h.list_window, List.length_cons]

theorem remaining_skip_one (h : r.Shows b rest) : (r.skip 1).remaining = rest.length := by
  rw [remaining_skip, h.remaining_eq, Nat.add_sub_cancel]

theorem peek_eq (h : r.Shows b rest) : r.peek = some b := by
  rw [Region.peek_eq, h.list_window, List.head?_cons]

theorem next (h : r.Shows b (c :: rest)) : (r.skip 1).Shows c rest where
  toWellFormed := h.toWellFormed.skip (by simp [h.remaining_eq])
  list_window := by rw [list_window_skip, h.list_window, List.drop_one, List.tail_cons]

/-- A window cut down to one byte or more starts with the same byte. -/
theorem narrowed {n : Nat} (h : r.Shows b rest) : (r.narrowed (n + 1)).Shows b (rest.take n) where
  toWellFormed := h.toWellFormed.narrowed _
  list_window := by rw [list_window_narrowed h.toWellFormed, h.list_window, List.take_succ_cons]

end Shows

theorem WellFormed.shows {r : Region} (h : r.WellFormed) (hroom : r.remaining ≠ 0) :
    ∃ b rest, r.Shows b rest := by
  cases hwindow : r.window.list with
  | nil => exact absurd (h.remaining_eq_zero.2 hwindow) hroom
  | cons b rest => exact ⟨b, rest, h, hwindow⟩

theorem shows_wrapReadOnly {bytes : Bytes} {b : UInt8} {rest : List UInt8}
    (h : bytes.list = b :: rest) : (wrapReadOnly bytes).Shows b rest :=
  ⟨wellFormed_wrapReadOnly bytes, by rw [list_window_wrapReadOnly, h]⟩

end Region

namespace Sink

/-! ## One step -/

/-- Here the bulk operation writes the byte in front and goes on with the rest of the window. -/
def StepsAt (atEnd : Except Fault Unit) (put : UInt8 → Action σ Unit)
    (bulk : Action (σ × Region) Unit) (s : σ) (r : Region) (b : UInt8) : Prop :=
  ∀ Q : Except Fault Unit → σ × Region → Prop, bulk.Ends (s, r) Q ↔
    (put b).Ends s fun answer t =>
      match answer with
      | .ok _ =>
        if (r.skip 1).remaining = 0 then Q (.ok ()) (t, r.skip 1)
        else bulk.Ends (t, r.skip 1) Q
      | .error fault => Q (atFault atEnd fault) (t, r)

/-- The bulk operation writes the byte in front and goes on with the rest of the window,
wherever there is a byte. -/
def Stepwise (atEnd : Except Fault Unit) (put : UInt8 → Action σ Unit)
    (bulk : Action (σ × Region) Unit) : Prop :=
  ∀ (s : σ) {r : Region} {b : UInt8} {rest : List UInt8}, r.Shows b rest →
    StepsAt atEnd put bulk s r b

variable {atEnd : Except Fault Unit} {put : UInt8 → Action σ Unit}
  {bulk bulk' : Action (σ × Region) Unit}

namespace Stepwise

variable {r : Region} {b : UInt8} {rest : List UInt8}

/-- The step, with what is left of the window as a list. -/
theorem ends_step (h : Stepwise atEnd put bulk) (s : σ) (hr : r.Shows b rest)
    (Q : Except Fault Unit → σ × Region → Prop) :
    bulk.Ends (s, r) Q ↔
      (put b).Ends s fun answer t =>
        match answer with
        | .ok _ =>
          if rest = [] then Q (.ok ()) (t, r.skip 1) else bulk.Ends (t, r.skip 1) Q
        | .error fault => Q (atFault atEnd fault) (t, r) := by
  rw [h s hr Q]
  refine ends_congr fun answer t => ?_
  cases answer with
  | ok _ => simp only [hr.remaining_skip_one, List.length_eq_zero_iff]
  | error fault => rfl

/-- Two operations that take the same steps do the same. -/
theorem ends_iff (h : Stepwise atEnd put bulk) (h' : Stepwise atEnd put bulk')
    (hr : r.Shows b rest) (s : σ) (Q : Except Fault Unit → σ × Region → Prop) :
    bulk.Ends (s, r) Q ↔ bulk'.Ends (s, r) Q := by
  induction rest generalizing s r b with
  | nil =>
    rw [h.ends_step s hr, h'.ends_step s hr]
    refine ends_congr fun answer t => ?_
    cases answer <;> simp
  | cons c rest ih =>
    rw [h.ends_step s hr, h'.ends_step s hr]
    refine ends_congr fun answer t => ?_
    cases answer with
    | ok _ => simp [ih hr.next t]
    | error fault => rfl

theorem agree (h : Stepwise atEnd put bulk) (h' : Stepwise atEnd put bulk')
    (hr : r.Shows b rest) (s : σ) : bulk.Agree bulk' (s, r) :=
  (h.ends_iff h' hr s _).mpr ⟨rfl, rfl⟩

/-- The window never moves back. -/
theorem ends_position_le (h : Stepwise atEnd put bulk) (hr : r.Shows b rest) (s : σ) :
    bulk.Ends (s, r) fun _ p => r.position ≤ p.2.position := by
  have hskip (q : Region) : (q.skip 1).position = q.position + 1 := rfl
  induction rest generalizing s r b with
  | nil =>
    rw [h.ends_step s hr]
    refine .of_forall fun answer t => ?_
    cases answer <;> simp
  | cons c rest ih =>
    rw [h.ends_step s hr]
    refine .of_forall fun answer t => ?_
    cases answer with
    | error fault => exact Nat.le_refl _
    | ok _ =>
      simp only [List.cons_ne_nil, if_false]
      refine (ih hr.next t).mono fun _ p hp => ?_
      rw [hskip] at hp
      omega

/-- A sink that hands its operations on takes the steps of the sink under it. -/
theorem lift {put' : UInt8 → Action τ Unit} {lifted : Action (τ × Region) Unit} (embed : σ → τ)
    (h : Stepwise atEnd put bulk)
    (hput : ∀ v s Q, (put' v).Ends (embed s) Q ↔ (put v).Ends s fun answer t => Q answer (embed t))
    (hbulk : ∀ s r Q, lifted.Ends (embed s, r) Q ↔
      bulk.Ends (s, r) fun answer p => Q answer (embed p.1, p.2))
    (s : σ) (hr : r.Shows b rest) : StepsAt atEnd put' lifted (embed s) r b := by
  intro Q
  rw [hbulk, h s hr, hput]
  refine ends_congr fun answer t => ?_
  cases answer with
  | ok _ => simp only [hbulk]
  | error fault => rfl

end Stepwise

/-- A sink that refuses the byte refuses the window. -/
theorem StepsAt.of_refused {s : σ} {r : Region} {b : UInt8} (fault : Fault)
    (hfault : fault ≠ .endOfStream) (hput : ∀ Q, (put b).Ends s Q ↔ Q (.error fault) s)
    (hbulk : ∀ Q, bulk.Ends (s, r) Q ↔ Q (.error fault) (s, r)) :
    StepsAt atEnd put bulk s r b := by
  intro Q
  rw [hbulk, hput]
  simp only [atFault_of_ne hfault]

/-! ## Bulk writes of given bytes -/

/-- Here the bulk write of some bytes does what writing them one by one does. -/
def PiecesAt (put : UInt8 → Action σ Unit) (write : Bytes → Action σ Unit) (s : σ) : Prop :=
  ∀ bytes : Bytes, bytes.list ≠ [] → ∀ Q : Except Fault Unit → σ → Prop,
    (write bytes).Ends s Q ↔ (Bytewise.writeBytes put bytes).Ends s Q

/-- The bulk write of some bytes does what writing them one by one does. -/
def Piecewise (put : UInt8 → Action σ Unit) (write : Bytes → Action σ Unit) : Prop :=
  ∀ s, PiecesAt put write s

/-- A drain for which it is a failure that bytes are left. -/
def drainAll (drain : Action (σ × Region) Unit) : Action (σ × Region) Unit := do
  drain
  if ← gets fun (_, region) => region.hasRemaining then
    fail .endOfStream

theorem ends_drainAll (drain : Action (σ × Region) Unit) (p : σ × Region)
    (Q : Except Fault Unit → σ × Region → Prop) :
    (drainAll drain).Ends p Q ↔
      drain.Ends p fun answer p =>
        Q (answer.bind fun _ => if p.2.remaining = 0 then .ok () else .error .endOfStream) p := by
  rw [drainAll, ends_bind]
  refine ends_congr fun answer p => ?_
  cases answer with
  | error fault => rfl
  | ok _ => by_cases hr : p.2.remaining = 0 <;> simp [Except.bind, hr]

theorem Stepwise.drainAll {drain : Action (σ × Region) Unit} (h : Stepwise (.ok ()) put drain) :
    Stepwise (.error .endOfStream) put (Sink.drainAll drain) := by
  intro s r b rest hr Q
  have hroom : r.remaining ≠ 0 := by simp [hr.remaining_eq]
  rw [ends_drainAll, h s hr]
  refine ends_congr fun answer t => ?_
  cases answer with
  | ok _ =>
    by_cases hfull : (r.skip 1).remaining = 0
    · simp only [hfull, if_true, Except.bind]
    · simp only [hfull, if_false, ends_drainAll]
  | error fault =>
    by_cases hend : fault = .endOfStream
    · subst hend
      simp only [atFault, Except.bind, hroom, if_false]
    · simp only [atFault_of_ne hend, Except.bind]

/-- An operation that takes one byte after the other from the window writes them in a row. -/
theorem Stepwise.ends_writeList (h : Stepwise (.error .endOfStream) put bulk) {r : Region}
    {b : UInt8} {rest : List UInt8} (hr : r.Shows b rest) (s : σ)
    (Q : Except Fault Unit → σ → Prop) :
    (bulk.Ends (s, r) fun answer p => Q answer p.1) ↔
      (Bytewise.writeList put (b :: rest)).Ends s Q := by
  have hfault (fault : Fault) : atFault (.error .endOfStream) fault = .error fault := by
    cases fault <;> rfl
  simp only [Bytewise.writeList]
  induction rest generalizing s r b with
  | nil =>
    rw [h.ends_step s hr, ends_forEach_cons]
    refine ends_congr fun answer t => ?_
    cases answer <;> simp [hfault]
  | cons c rest ih =>
    rw [h.ends_step s hr, ends_forEach_cons]
    refine ends_congr fun answer t => ?_
    cases answer with
    | ok _ => simpa using ih hr.next t
    | error fault => simp [hfault]

theorem Stepwise.piecewise (h : Stepwise (.error .endOfStream) put bulk) :
    Piecewise put fun bytes => (do
      let _ ← alongside (Region.wrapReadOnly bytes) bulk) := by
  intro s bytes hbytes Q
  cases hlist : bytes.list with
  | nil => exact absurd hlist hbytes
  | cons b rest =>
    rw [Bytewise.writeBytes, hlist, ← h.ends_writeList (Region.shows_wrapReadOnly hlist),
      ends_bind, ends_alongside]
    refine ends_congr fun answer p => ?_
    cases answer <;> rfl

theorem Stepwise.drainCompletely {drain : Action (σ × Region) Unit}
    (h : Stepwise (.ok ()) put drain) : Piecewise put (Sink.drainCompletely drain) :=
  h.drainAll.piecewise

/-- A sink that hands single bytes on hands a row of them on. -/
theorem ends_writeList_lift {put' : UInt8 → Action τ Unit} {embed : σ → τ}
    (hput : ∀ v s Q, (put' v).Ends (embed s) Q ↔ (put v).Ends s fun answer t => Q answer (embed t))
    (bs : List UInt8) (s : σ) (Q : Except Fault Unit → τ → Prop) :
    (Bytewise.writeList put' bs).Ends (embed s) Q ↔
      (Bytewise.writeList put bs).Ends s fun answer t => Q answer (embed t) := by
  simp only [Bytewise.writeList]
  induction bs generalizing s with
  | nil => rfl
  | cons b bs ih =>
    rw [ends_forEach_cons, ends_forEach_cons, hput]
    refine ends_congr fun answer t => ?_
    cases answer with
    | ok _ => exact ih t
    | error fault => rfl

/-- A sink that refuses single bytes refuses a row of them. -/
theorem PiecesAt.of_refused {write : Bytes → Action σ Unit} {s : σ} (fault : Fault)
    (hput : ∀ v Q, (put v).Ends s Q ↔ Q (.error fault) s)
    (hwrite : ∀ bytes Q, (write bytes).Ends s Q ↔ Q (.error fault) s) : PiecesAt put write s := by
  intro bytes hbytes Q
  rw [hwrite, Bytewise.writeBytes, Bytewise.writeList]
  cases hlist : bytes.list with
  | nil => exact absurd hlist hbytes
  | cons b rest => rw [ends_forEach_cons, hput]

namespace Piecewise

variable {write write' : Bytes → Action σ Unit}

theorem congr (h : Piecewise put write)
    (hwrite : ∀ bytes s Q, (write' bytes).Ends s Q ↔ (write bytes).Ends s Q) :
    Piecewise put write' := by
  intro s bytes hbytes Q
  rw [hwrite, h s bytes hbytes]

theorem agree (h : Piecewise put write) {bytes : Bytes} (hbytes : bytes.list ≠ []) (s : σ) :
    (write bytes).Agree (Bytewise.writeBytes put bytes) s :=
  (h s bytes hbytes _).mpr ⟨rfl, rfl⟩

/-- A sink that hands its operations on writes in pieces what the sink under it does. -/
theorem lift {put' : UInt8 → Action τ Unit} {lifted : Bytes → Action τ Unit} (embed : σ → τ)
    (h : Piecewise put write)
    (hput : ∀ v s Q, (put' v).Ends (embed s) Q ↔ (put v).Ends s fun answer t => Q answer (embed t))
    (hwrite : ∀ bytes s Q, (lifted bytes).Ends (embed s) Q ↔
      (write bytes).Ends s fun answer t => Q answer (embed t)) (s : σ) :
    PiecesAt put' lifted (embed s) := by
  intro bytes hbytes Q
  rw [hwrite, h s bytes hbytes, Bytewise.writeBytes, Bytewise.writeBytes, ends_writeList_lift hput]

end Piecewise

end Sink

/-- The derived drain takes the step. -/
theorem Bytewise.stepwise_drain (put : UInt8 → Action σ Unit) :
    Sink.Stepwise (.ok ()) put (drain put) := by
  intro s r b rest hr Q
  simp only [drain, ends_gets_bind]
  rw [hr.remaining_eq, ends_repeatUntil_succ, ends_gets_bind]
  dsimp only
  rw [hr.peek_eq]
  dsimp only
  rw [ends_attempt_bind, ends_onFirst]
  refine ends_congr fun answer t => ?_
  cases answer with
  | error fault => cases fault <;> rfl
  | ok _ =>
    simp only [hr.remaining_skip_one]
    cases rest <;> exact Iff.rfl

/-- A sink whose bulk operations write byte by byte, and whose flushes and closings are never
taken for the end of the stream. -/
class StepwiseSink (σ : Type) [Sink σ] : Prop where
  ends_flush : ∀ s, (Sink.flush : Action σ Unit).Ends s fun answer _ =>
    answer ≠ .error .endOfStream
  ends_close : ∀ s, (Closeable.close : Action σ Unit).Ends s fun answer _ =>
    answer ≠ .error .endOfStream
  drain : Sink.Stepwise (.ok ()) Sink.writeU8 (Sink.drain : Action (σ × Region) Unit)
  writeBytes : Sink.Piecewise (Sink.writeU8 : UInt8 → Action σ Unit) Sink.writeBytes

instance : StepwiseSink Empty where
  ends_flush s := s.elim
  ends_close s := s.elim
  drain s := s.elim
  writeBytes s := s.elim

/-! ## Memory -/

namespace MemorySink

theorem stepwise_copyFrom : Sink.Stepwise (.ok ()) put copyFrom := by
  intro s r b rest hr
  cases hclosed : s.closed with
  | true =>
    refine .of_refused .closed (by simp) (fun Q => ?_) (ends_copyFrom_of_closed hclosed r)
    rw [Ends, put]
    simp only [hclosed, if_true]
  | false =>
    intro Q
    rw [ends_copyFrom hclosed hr.toWellFormed, ends_put hclosed, hr.list_window, hr.remaining_eq]
    by_cases hroom : s.available = 0
    · simp [hroom, atFault]
    · obtain ⟨k, hk⟩ := Nat.exists_eq_succ_of_ne_zero hroom
      have hposition : s.position ≤ s.data.size := by
        rw [available] at hroom
        omega
      have hleft : (s.receive [b]).available = k := by
        rw [available, size_receive (by simp [hk]), position_receive]
        rw [available] at hk
        simp
        omega
      have htake : (b :: rest).take s.available = [b] ++ rest.take k := by
        rw [hk, List.take_succ_cons, List.singleton_append]
      rw [if_neg hroom, htake, ← receive_receive hposition]
      cases rest with
      | nil => simp [hr.remaining_skip_one, hk]
      | cons c rest =>
        have hmin : min s.available ((c :: rest).length + 1) = 1 + min k (c :: rest).length := by
          omega
        have hmore := ends_copyFrom (s := s.receive [b]) hclosed hr.next.toWellFormed Q
        dsimp only
        rw [hmore, hr.next.list_window, hleft, hr.remaining_skip_one, Region.skip_skip, hmin]
        simp

instance : StepwiseSink MemorySink where
  ends_flush _ := by simp [Sink.flush]
  ends_close _ := by simp [Closeable.close]
  drain := stepwise_copyFrom
  writeBytes := stepwise_copyFrom.drainCompletely

end MemorySink

namespace GrowingSink

theorem stepwise_appendWindow : Sink.Stepwise (.ok ()) push appendWindow := by
  intro s r b rest hr Q
  rcases s with ⟨bytes, closed⟩
  cases closed with
  | true => rfl
  | false =>
    have hbytes : bytes.push b ++ (r.skip 1).window = bytes ++ r.window := by
      apply Bytes.ext_list
      simp only [Bytes.list_append, Bytes.list_push, Region.list_window_skip, hr.list_window]
      simp
    rw [ends_appendWindow, ends_push rfl, hr.remaining_eq]
    simp only [Bool.false_eq_true, if_false]
    cases rest with
    | nil =>
      have hlast : bytes.push b = bytes ++ r.window := by
        apply Bytes.ext_list
        simp [-Region.list_window, hr.list_window]
      simp [hr.remaining_skip_one, hlast]
    | cons c rest =>
      rw [ends_appendWindow, hr.remaining_skip_one, hbytes, Region.skip_skip, Nat.add_comm 1]
      simp

/-- Bytes are added as if they had come in a window. -/
theorem ends_append_iff (bytes : Bytes) (s : GrowingSink)
    (Q : Except Fault Unit → GrowingSink → Prop) :
    (append bytes).Ends s Q ↔ (Sink.drainCompletely appendWindow bytes).Ends s Q := by
  have hwindow : (Region.wrapReadOnly bytes).window = bytes :=
    Bytes.ext_list (Region.list_window_wrapReadOnly bytes)
  rw [Sink.ends_drainCompletely, ends_appendWindow, hwindow]
  rcases s with ⟨held, closed⟩
  cases closed with
  | true => rfl
  | false => simp [ends_append, Except.bind]

instance : StepwiseSink GrowingSink where
  ends_flush _ := by simp [Sink.flush]
  ends_close _ := by simp [Closeable.close]
  drain := stepwise_appendWindow
  writeBytes := stepwise_appendWindow.drainCompletely.congr ends_append_iff

end GrowingSink

namespace HashingSink

theorem stepwise_absorbWindow : Sink.Stepwise (.ok ()) (fun v => absorb [v]) absorbWindow := by
  intro s r b rest hr Q
  rcases s with ⟨algorithm, state, count, closed⟩
  cases closed with
  | true => rfl
  | false =>
    have hstate : (state.feed [b]).feed rest = state.feed (b :: rest) := by
      rw [← Digest.State.feed_append, List.singleton_append]
    rw [ends_absorbWindow, hr.remaining_eq, hr.list_window]
    simp only [Bool.false_eq_true, if_false]
    cases rest with
    | nil =>
      rw [hr.remaining_skip_one]
      rfl
    | cons c rest =>
      change _ ↔ if _ then _ else absorbWindow.Ends (⟨algorithm, _, count + 1, false⟩, _) Q
      rw [ends_absorbWindow, hr.remaining_skip_one, hr.next.list_window, Region.skip_skip, hstate]
      simp [Nat.add_comm, Nat.add_left_comm]

/-- Bytes are hashed as if they had come in a window. -/
theorem ends_absorb_iff (bytes : Bytes) (s : HashingSink)
    (Q : Except Fault Unit → HashingSink → Prop) :
    (absorb bytes.list).Ends s Q ↔ (Sink.drainCompletely absorbWindow bytes).Ends s Q := by
  rw [Sink.ends_drainCompletely, ends_absorbWindow, Region.list_window_wrapReadOnly]
  rcases s with ⟨algorithm, state, count, closed⟩
  cases closed with
  | true => rfl
  | false =>
    simp only [Bool.false_eq_true, if_false, Region.remaining_skip, Nat.sub_self, if_true]
    rfl

instance : StepwiseSink HashingSink where
  ends_flush _ := by simp [Sink.flush]
  ends_close _ := by simp [Closeable.close]
  drain := stepwise_absorbWindow
  writeBytes := stepwise_absorbWindow.drainCompletely.congr ends_absorb_iff

end HashingSink

end ByteFlow
