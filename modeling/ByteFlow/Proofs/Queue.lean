import ByteFlow.Proofs.Bounds.World

/-!
# A region as a queue

Between two clearings a region is a queue of bytes with limited room.  There are three ways to put
bytes into it, and all of them come to putting one byte after the other until there is no room
left.  Turned round, it gives back what was put, in the same order and each byte once, however the
caller looks at the bytes and moves past them.

What lies behind the stored bytes is never shown.  It may be left over from an earlier use of the
region, or have been written by a caller who did not move past it.

## Main definitions

* `Region.Reachable` — the states of a region that may be written.
* `Region.opened limit r` — the region, ready to be filled with at most so many bytes.
* `Region.Deposit`, `Region.Withdrawal` — a step of filling, and one of draining.
* `Deposit.replies`, `Withdrawal.replies` — what a queue answers to steps in a row.
* `Region.Stored r bs q` — the bytes `bs` were stored, and nothing else is to be seen.
* `Region.ActsAsQueue` — what a caller can rely on.
* `Region.actsAsQueue` — this is so in every state.
-/

namespace ByteFlow.Region

open ByteFlow.Action

variable {r q p : Region} {bs cs : List UInt8} {n : Nat}

/-! ## States -/

/-- The states of a region that may be written, from a new one on. -/
inductive Reachable : Region → Prop
  | allocate (capacity : Nat) (placement : Placement) : Reachable (allocate capacity placement)
  | wrap (bytes : Bytes) : Reachable (wrap bytes)
  | change {r : Region} (change : Change) : Reachable r → Reachable (change.apply r)

theorem Reachable.writable (h : r.Reachable) : r.Writable := by
  induction h with
  | allocate capacity placement => exact writable_allocate capacity placement
  | wrap bytes => exact ⟨⟨Nat.zero_le _, Nat.le_refl _⟩, rfl⟩
  | change change _ ih =>
    obtain ⟨hwellFormed, hkept⟩ := change.apply_kept ih.toWellFormed
    exact ⟨hwellFormed, hkept.readOnly_eq.trans ih.readOnly_eq⟩

/-- The region, ready to be filled with at most `limit` bytes where there is a limit. -/
def opened (limit : Option Nat) (r : Region) : Region :=
  match limit with
  | none => r.clear
  | some limit => r.clear.setLimit limit

/-- For how many bytes there is room in a region that is ready to be filled. -/
def room (limit : Option Nat) (r : Region) : Nat := min r.capacity (limit.getD r.capacity)

theorem Writable.opened (h : r.Writable) (limit : Option Nat) : (r.opened limit).Writable := by
  cases limit with
  | none => exact ⟨.clear r, h.readOnly_eq⟩
  | some limit => exact ⟨wellFormed_setLimit r.clear limit, h.readOnly_eq⟩

@[simp] theorem position_opened (limit : Option Nat) (r : Region) :
    (r.opened limit).position = 0 := by
  cases limit <;> simp [opened, clear, setLimit]

theorem remaining_opened (limit : Option Nat) (r : Region) :
    (r.opened limit).remaining = r.room limit := by
  cases limit with
  | none => simp [opened, room, clear, remaining]
  | some limit =>
    simp only [opened, room, clear, setLimit, remaining, capacity, Option.getD_some]
    omega

/-! ## Steps -/

/-- A step of filling. -/
inductive Deposit where
  | byte (v : UInt8)
  | slice (src : Bytes)
  /-- The caller writes into the window itself, as much as there is room for, and moves past the
  bytes of `src` that it wrote.  What it wrote behind them does not count. -/
  | byHand (src scratch : Bytes)

/-- A step of draining. -/
inductive Withdrawal where
  | peek
  | window
  | remaining
  | advance (n : Nat)

/-- What comes of a step of filling. -/
inductive Deposit.Reply where
  /-- So many bytes were stored. -/
  | stored (count : Nat)
  | refused (fault : Fault)
  | overrun (o : Overrun)
  deriving DecidableEq

/-- What a step of draining shows. -/
inductive Withdrawal.Reply where
  | first (b : Option UInt8)
  | rest (bytes : List UInt8)
  | count (n : Nat)
  /-- The window was moved past these bytes. -/
  | taken (bytes : List UInt8)
  | overrun (o : Overrun)
  deriving DecidableEq

/-- Move the start of the window on, and answer whether it reaches so far. -/
def proceed (n : Nat) : Action Region (Except Overrun Unit) := .of fun r =>
  match r.advance n with
  | .ok q => ⟨.ok (.ok ()), q, #[]⟩
  | .error o => ⟨.ok (.error o), r, #[]⟩

namespace Deposit

/-- The bytes that a step offers. -/
def bytes : Deposit → List UInt8
  | byte v => [v]
  | slice src => src.list
  | byHand src _ => src.list

/-- What an answer amounts to. -/
def Reply.ofAnswer : Except Fault Nat → Reply
  | .ok count => .stored count
  | .error fault => .refused fault

/-- Take the step with a region. -/
def perform : Deposit → Action Region Reply
  | byte v => do
    let answer ← attempt (put v)
    pure (.ofAnswer (answer.map fun _ => 1))
  | slice src => do
    let answer ← attempt (putSlice src)
    pure (.ofAnswer answer)
  | byHand src scratch => do
    let view ← unfilled
    let _ ← stage (src ++ scratch) 0
    match ← proceed (min view.size src.size) with
    | .ok _ => pure (.stored (min view.size src.size))
    | .error o => pure (.overrun o)

/-- Take steps with a region, one after the other, whatever each of them comes to. -/
def performAll : List Deposit → Action Region (List Reply)
  | [] => pure []
  | deposit :: others => do
    let reply ← deposit.perform
    let replies ← performAll others
    pure (reply :: replies)

/-- What comes of the step with a queue that has room for so many bytes. -/
def reply (room : Nat) : Deposit → Reply
  | byte _ => if room = 0 then .refused (.misuse .regionFull) else .stored 1
  | slice src => .stored (min room src.size)
  | byHand src _ => .stored (min room src.size)

/-- What comes of steps in a row, each one with the room that the ones before it left. -/
def replies (room : Nat) : List Deposit → List Reply
  | [] => []
  | deposit :: others => deposit.reply room :: replies (room - deposit.bytes.length) others

end Deposit

namespace Withdrawal

/-- Take the step with a region. -/
def perform : Withdrawal → Action Region Reply
  | peek => gets fun r => .first r.peek
  | window => gets fun r => .rest r.window.list
  | remaining => gets fun r => .count r.remaining
  | advance n => do
    let shown ← gets Region.window
    match ← proceed n with
    | .ok _ => pure (.taken (shown.list.take n))
    | .error o => pure (.overrun o)

/-- Take steps with a region, one after the other, whatever each of them shows. -/
def performAll : List Withdrawal → Action Region (List Reply)
  | [] => pure []
  | withdrawal :: others => do
    let reply ← withdrawal.perform
    let replies ← performAll others
    pure (reply :: replies)

/-- What a queue shows that holds the given bytes. -/
def reply (bs : List UInt8) : Withdrawal → Reply
  | peek => .first bs.head?
  | window => .rest bs
  | remaining => .count bs.length
  | advance n => if n ≤ bs.length then .taken (bs.take n) else .overrun ⟨n, bs.length⟩

/-- The bytes that came out by a step. -/
def Reply.bytes : Reply → List UInt8
  | taken bytes => bytes
  | _ => []

/-- What the queue holds after the step. -/
def left (bs : List UInt8) : Withdrawal → List UInt8
  | advance n => if n ≤ bs.length then bs.drop n else bs
  | _ => bs

/-- What a queue shows to steps in a row. -/
def replies (bs : List UInt8) : List Withdrawal → List Reply
  | [] => []
  | withdrawal :: others => withdrawal.reply bs :: replies (withdrawal.left bs) others

/-- No byte is lost and none comes out twice. -/
theorem bytes_append_left (bs : List UInt8) (withdrawal : Withdrawal) :
    (withdrawal.reply bs).bytes ++ withdrawal.left bs = bs := by
  cases withdrawal with
  | peek | window | remaining => rfl
  | advance n =>
    rw [left, reply]
    split
    · exact List.take_append_drop n bs
    · rfl

end Withdrawal

theorem ends_proceed (hn : n ≤ r.remaining)
    (Q : Except Fault (Except Overrun Unit) → Region → Prop) :
    (proceed n).Ends r Q ↔ Q (.ok (.ok ())) (r.skip n) := by
  simp [Ends, proceed, advance, hn]

theorem ends_proceed_of_lt (hn : r.remaining < n)
    (Q : Except Fault (Except Overrun Unit) → Region → Prop) :
    (proceed n).Ends r Q ↔ Q (.ok (.error ⟨n, r.remaining⟩)) r := by
  simp [Ends, proceed, advance, Nat.not_le_of_lt hn]

/-! ## Filling -/

/-- The bytes were stored at the front of the window, whatever lies behind them now. -/
structure Stored (r : Region) (bs : List UInt8) (q : Region) : Prop where
  writable : q.Writable
  limit_eq : q.limit = r.limit
  position_eq : q.position = r.position + bs.length
  filled_eq : q.filled.list = r.filled.list ++ bs

theorem Stored.refl (h : r.Writable) : r.Stored [] r :=
  ⟨h, rfl, rfl, (List.append_nil _).symm⟩

theorem Stored.trans (h : r.Stored bs q) (h' : q.Stored cs p) : r.Stored (bs ++ cs) p where
  writable := h'.writable
  limit_eq := h'.limit_eq.trans h.limit_eq
  position_eq := by
    rw [h'.position_eq, h.position_eq, List.length_append, Nat.add_assoc]
  filled_eq := by
    rw [h'.filled_eq, h.filled_eq, List.append_assoc]

theorem Stored.remaining_eq (h : r.Stored bs q) : q.remaining = r.remaining - bs.length := by
  rw [remaining, remaining, h.limit_eq, h.position_eq, Nat.sub_add_eq]

theorem Writable.stored_receive (h : r.Writable) (hbs : bs.length ≤ r.remaining) :
    r.Stored bs (r.receive bs) :=
  ⟨h.receive hbs, rfl, rfl, list_filled_receive h.toWellFormed⟩

/-- A region without room takes no byte and stays as it is. -/
theorem run_put_of_full (hfull : r.remaining = 0) (v : UInt8) :
    (put v).run r = ⟨.error (.misuse .regionFull), r, #[]⟩ := by
  simp [put, hfull]

/-- Bytes that are put one after the other are stored until there is no room left. -/
theorem ends_writeList_put (h : r.Writable) (bs : List UInt8) :
    (Bytewise.writeList put bs).Ends r fun answer q =>
      q = r.receive (bs.take r.remaining) ∧
        answer = if bs.length ≤ r.remaining then .ok () else .error (.misuse .regionFull) := by
  induction bs generalizing r with
  | nil =>
    rw [List.take_nil, receive_nil]
    exact ⟨rfl, rfl⟩
  | cons b bs ih =>
    rw [Bytewise.writeList, ends_forEach_cons]
    by_cases hfull : r.remaining = 0
    · rw [Ends, run_put_of_full hfull, hfull, List.take_zero, receive_nil]
      exact ⟨rfl, rfl⟩
    · rw [ends_put h hfull]
      refine (ih (h.receive_one hfull b)).mono ?_
      rintro answer q ⟨rfl, rfl⟩
      rw [receive_receive h.toWellFormed, remaining_receive_one]
      obtain ⟨room, hroom⟩ := Nat.exists_eq_succ_of_ne_zero hfull
      rw [hroom]
      exact ⟨rfl, by simp⟩

/-- A caller who writes more than it moves past shows only what it moved past. -/
theorem Writable.stored_by_hand (h : r.Writable) (src scratch : Bytes) :
    r.Stored (src.list.take r.remaining)
      (skip { r with
        bytes := r.bytes.overwrite r.position (src ++ scratch) 0
          (min r.remaining ((src ++ scratch).size - 0)) } (min r.remaining src.size)) where
  writable := by
    have hstaged := size_staged h.toWellFormed (src ++ scratch) 0
    refine ⟨WellFormed.skip ⟨h.position_le, ?_⟩ (Nat.min_le_left ..), h.readOnly_eq⟩
    rw [capacity, hstaged]
    exact h.limit_le
  limit_eq := rfl
  position_eq := by
    rw [position_skip, List.length_take, Bytes.length_list]
  filled_eq := by
    have hfront : (r.bytes.list.take r.position).length = r.position := by
      have h₁ := h.position_le
      have h₂ := h.limit_le
      rw [List.length_take, Bytes.length_list, ← capacity]
      omega
    have hcount : (src.list.take r.remaining).length = min r.remaining src.size := by
      rw [List.length_take, Bytes.length_list]
    have hstaged : ((src ++ scratch).list.drop 0).take
        (min r.remaining ((src ++ scratch).size - 0)) =
          src.list.take r.remaining ++ scratch.list.take (r.remaining - src.size) := by
      rw [Nat.sub_zero, ← Bytes.length_list (src ++ scratch), List.drop_zero,
        ← List.take_eq_take_min, Bytes.list_append, List.take_append, Bytes.length_list]
    rw [list_filled, list_filled, position_skip]
    dsimp only [skip]
    rw [Bytes.list_overwrite, hstaged, ← List.append_assoc (r.bytes.list.take r.position),
      List.append_assoc (r.bytes.list.take r.position ++ _)]
    exact List.take_left' (by rw [List.length_append, hfront, hcount])

/-- One step stores the bytes in front of those that it offers, as many as there is room for. -/
theorem Deposit.ends_perform (h : r.Writable) (deposit : Deposit) :
    deposit.perform.Ends r fun answer q =>
      answer = .ok (deposit.reply r.remaining) ∧
        r.Stored (deposit.bytes.take r.remaining) q := by
  cases deposit with
  | byte v =>
    rw [perform, ends_attempt_bind]
    by_cases hfull : r.remaining = 0
    · rw [Ends, run_put_of_full hfull, hfull, List.take_zero]
      exact ⟨rfl, .refl h⟩
    · rw [ends_put h hfull, bytes, List.take_of_length_le (Nat.pos_of_ne_zero hfull)]
      refine ⟨?_, h.stored_receive (Nat.pos_of_ne_zero hfull)⟩
      rw [reply, if_neg hfull]
      rfl
  | slice src =>
    rw [perform, ends_attempt_bind, putSlice, ends_putFrom h.readOnly_eq]
    exact ⟨rfl, h.stored_receive (List.length_take_le ..)⟩
  | byHand src scratch =>
    have hview : r.window.size = r.remaining := h.toWellFormed.length_window
    rw [perform, unfilled, bind_assoc, ends_bind, ends_requireWritable h.readOnly_eq]
    dsimp only
    rw [ends_gets_bind, hview, ends_bind, ends_stage h.readOnly_eq]
    dsimp only
    rw [ends_bind]
    refine (ends_proceed ?_ _).2 ⟨rfl, h.stored_by_hand src scratch⟩
    exact Nat.min_le_left r.remaining src.size

/-- Steps in a row store the bytes in front of all those that are offered. -/
theorem Deposit.ends_performAll (h : r.Writable) (deposits : List Deposit) :
    (performAll deposits).Ends r fun answer q =>
      answer = .ok (replies r.remaining deposits) ∧
        r.Stored ((deposits.flatMap bytes).take r.remaining) q := by
  induction deposits generalizing r with
  | nil => exact ⟨rfl, by rw [List.flatMap_nil, List.take_nil]; exact .refl h⟩
  | cons deposit others ih =>
    rw [performAll, ends_bind]
    refine (deposit.ends_perform h).of_answer ?_
    intro q hq
    have hleft : q.remaining = r.remaining - deposit.bytes.length := by
      rw [hq.remaining_eq, List.length_take]
      omega
    simp only [bind_pure_comp, ends_map]
    refine (ih hq.writable).of_answer ?_
    intro p hp
    rw [hleft] at hp ⊢
    refine ⟨rfl, ?_⟩
    rw [List.flatMap_cons, List.take_append]
    exact hq.trans hp

/-! ## Draining -/

/-- A region is drained as the queue of the bytes in its window. -/
theorem Withdrawal.ends_perform (h : r.WellFormed) (withdrawal : Withdrawal) :
    withdrawal.perform.Ends r fun answer q =>
      answer = .ok (withdrawal.reply r.window.list) ∧
        q.WellFormed ∧ q.window.list = withdrawal.left r.window.list := by
  cases withdrawal with
  | peek =>
    rw [perform, ends_gets, peek_eq]
    exact ⟨rfl, h, rfl⟩
  | window => exact ⟨rfl, h, rfl⟩
  | remaining =>
    rw [perform, ends_gets, reply, h.length_window]
    exact ⟨rfl, h, rfl⟩
  | advance n =>
    rw [perform, ends_gets_bind, ends_bind, reply, left, h.length_window]
    by_cases hn : n ≤ r.remaining
    · rw [ends_proceed hn, if_pos hn, if_pos hn]
      exact ⟨rfl, h.skip hn, list_window_skip r n⟩
    · rw [ends_proceed_of_lt (Nat.lt_of_not_le hn), if_neg hn, if_neg hn]
      exact ⟨rfl, h, rfl⟩

/-- Steps in a row show what the queue shows, and what came out and what is left are together
what there was. -/
theorem Withdrawal.ends_performAll (h : r.WellFormed) (withdrawals : List Withdrawal) :
    (performAll withdrawals).Ends r fun answer q =>
      answer = .ok (replies r.window.list withdrawals) ∧
        q.WellFormed ∧
        (replies r.window.list withdrawals).flatMap Reply.bytes ++ q.window.list =
          r.window.list := by
  induction withdrawals generalizing r with
  | nil => exact ⟨rfl, h, rfl⟩
  | cons withdrawal others ih =>
    rw [performAll, ends_bind]
    refine (withdrawal.ends_perform h).of_answer ?_
    rintro q ⟨hq, hleft⟩
    simp only [bind_pure_comp, ends_map]
    refine (ih hq).of_answer ?_
    rintro p ⟨hp, hout⟩
    rw [hleft] at hout ⊢
    refine ⟨rfl, hp, ?_⟩
    rw [replies, List.flatMap_cons, List.append_assoc, hout, bytes_append_left]

/-! ## Filled, turned round and drained -/

/-- What a caller can rely on who uses a region as a queue. -/
structure ActsAsQueue (r : Region) : Prop where
  /-- A slice is stored as its bytes are one after the other, until there is no room left. -/
  slice : ∀ src : Bytes, (putSlice src).Ends r fun count q =>
    count = .ok (min r.remaining src.size) ∧
      q.filled.list = r.filled.list ++ src.list.take (min r.remaining src.size) ∧
      (Bytewise.writeList put src.list).Ends r fun answer t =>
        t = q ∧ answer = if src.size ≤ r.remaining then .ok () else .error (.misuse .regionFull)
  /-- Without room no byte is stored, and nothing changes. -/
  full : r.remaining = 0 → ∀ v, (put v).run r = ⟨.error (.misuse .regionFull), r, #[]⟩
  /-- Whatever the region was used for, it can be filled anew.  It stores the bytes in front of
  those that it is offered, as many as there is room for, and gives them back in their order. -/
  cycle : ∀ (limit : Option Nat) (deposits : List Deposit) (withdrawals : List Withdrawal),
    (Deposit.performAll deposits).Ends (r.opened limit) fun done q =>
      done = .ok (Deposit.replies (r.room limit) deposits) ∧
      q.filled.list = (deposits.flatMap Deposit.bytes).take (r.room limit) ∧
      (Withdrawal.performAll withdrawals).Ends q.flip fun shown p =>
        shown = .ok (Withdrawal.replies q.filled.list withdrawals) ∧
        (Withdrawal.replies q.filled.list withdrawals).flatMap Withdrawal.Reply.bytes ++
          p.window.list = q.filled.list ∧
        p.remaining = p.window.list.length

theorem Writable.ends_cycle (h : r.Writable) (limit : Option Nat) (deposits : List Deposit) :
    (Deposit.performAll deposits).Ends (r.opened limit) fun done q =>
      done = .ok (Deposit.replies (r.room limit) deposits) ∧ q.WellFormed ∧
        q.filled.list = (deposits.flatMap Deposit.bytes).take (r.room limit) := by
  have hopened := h.opened limit
  have hempty : (r.opened limit).filled.list = [] := by
    rw [list_filled, position_opened, List.take_zero]
  rw [← remaining_opened]
  refine (Deposit.ends_performAll hopened deposits).of_answer ?_
  intro q hq
  refine ⟨rfl, hq.writable.toWellFormed, ?_⟩
  rw [hq.filled_eq, hempty, List.nil_append]

/-- Whatever state a region is in that may be written, it acts as a queue. -/
theorem actsAsQueue (h : r.Reachable) : r.ActsAsQueue where
  slice src := by
    have hw := h.writable
    rw [putSlice, ends_putFrom hw.readOnly_eq]
    refine ⟨rfl, ?_, (ends_writeList_put hw src.list).mono ?_⟩
    · rw [List.drop_zero, list_filled_receive hw.toWellFormed, ← Bytes.length_list src,
        ← List.take_eq_take_min]
    · rintro answer t ⟨rfl, rfl⟩
      exact ⟨rfl, rfl⟩
  full hfull v := run_put_of_full hfull v
  cycle limit deposits withdrawals := by
    refine (h.writable.ends_cycle limit deposits).of_answer ?_
    rintro q ⟨hq, hfilled⟩
    refine ⟨rfl, hfilled, ?_⟩
    rw [← window_flip]
    refine (Withdrawal.ends_performAll hq.flip withdrawals).of_answer ?_
    rintro p ⟨hp, hout⟩
    exact ⟨rfl, hout, hp.length_window.symm⟩

/-- A region that was used before, narrowed to four of its six bytes.  A caller writes three bytes
by hand and counts two of them, a slice fits in part only, and a byte comes too late.  Draining it
does not go beyond the four bytes. -/
theorem actsAsQueue_of_used_region :
    let r := Change.apply .flip (Change.apply (.putSlice (Bytes.ofList [9, 9, 9, 9, 9]))
      (allocate 6 .direct))
    let deposits := [.byte 1, .byHand (Bytes.ofList [2, 3]) (Bytes.ofList [7]),
      .slice (Bytes.ofList [4, 5]), .byte 6]
    let withdrawals := [.peek, .advance 3, .window, .advance 2, .advance 1, .peek]
    r.Reachable ∧
      (Deposit.performAll deposits).Ends (r.opened (some 4)) fun done q =>
        done = .ok [.stored 1, .stored 2, .stored 1, .refused (.misuse .regionFull)] ∧
        q.filled.list = [1, 2, 3, 4] ∧
        (Withdrawal.performAll withdrawals).Ends q.flip fun shown p =>
          shown = .ok [.first (some 1), .taken [1, 2, 3], .rest [4], .overrun ⟨2, 1⟩, .taken [4],
            .first none] ∧
          [1, 2, 3, 4] ++ p.window.list = q.filled.list ∧ p.remaining = 0 := by
  intro r deposits withdrawals
  have hreachable : r.Reachable := .change .flip (.change _ (.allocate 6 .direct))
  have hroom : r.room (some 4) = 4 := by decide
  refine ⟨hreachable, ((actsAsQueue hreachable).cycle (some 4) deposits withdrawals).mono ?_⟩
  rw [hroom]
  rintro done q ⟨rfl, hq, hdrained⟩
  refine ⟨rfl, hq, hdrained.mono ?_⟩
  rw [hq]
  rintro shown p ⟨rfl, hout, hleft⟩
  have hnone : p.window.list = [] := List.append_cancel_left (hout.trans (List.append_nil _).symm)
  refine ⟨rfl, hout, ?_⟩
  rw [hleft, hnone]
  rfl

end ByteFlow.Region
