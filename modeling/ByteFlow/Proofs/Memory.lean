import ByteFlow.Endpoint.Hashing
import ByteFlow.Endpoint.Memory
import ByteFlow.Proofs.Region

/-!
# How the streams in memory act

One rule for each data operation of a source or sink in memory.  The rules are in terms
of lists: what is left of the bytes of a source, and what was written to a sink.

## Main definitions

* `MemorySource.ends_next`, `MemorySource.ends_copyInto` — reading.
* `MemorySink.receive bs s` — a sink with the bytes `bs` in its next places.
* `MemorySink.ends_put`, `MemorySink.ends_copyFrom` — writing.
* `GrowingSink.ends_appendWindow`, `HashingSink.ends_absorbWindow` — sinks without a limit.
-/

namespace ByteFlow

open ByteFlow.Action

/-! ## A source over bytes -/

namespace MemorySource

variable {s : MemorySource}

theorem ends_next (h : s.closed = false) (Q : Except Fault UInt8 → MemorySource → Prop) :
    next.Ends s Q ↔
      match s.data.list.drop s.position with
      | [] => Q (.error .endOfStream) s
      | b :: _ => Q (.ok b) { s with position := s.position + 1 } := by
  rw [Ends, next]
  simp only [h, Bool.false_eq_true, if_false]
  cases hget : s.data[s.position]? with
  | none =>
    rw [← Bytes.getElem?_list, List.getElem?_eq_none_iff] at hget
    rw [List.drop_of_length_le hget]
  | some b =>
    rw [← Bytes.getElem?_list] at hget
    obtain ⟨hlt, rfl⟩ := List.getElem?_eq_some_iff.1 hget
    rw [List.drop_eq_getElem_cons hlt]

/-- One copy moves as many bytes as the window has room for. -/
theorem ends_copyInto (h : s.closed = false) {r : Region} (hr : r.readOnly = false)
    (Q : Except Fault Unit → MemorySource × Region → Prop) :
    copyInto.Ends (s, r) Q ↔
      Q (.ok ())
        ({ s with position := s.position + min r.remaining (s.data.size - s.position) },
          r.receive ((s.data.list.drop s.position).take r.remaining)) := by
  rcases s with ⟨data, position, closed⟩
  obtain rfl : closed = false := h
  rw [copyInto, ends_gets_bind]
  simp only [Bool.false_eq_true, if_false, ends_gets_bind]
  rw [ends_bind, ends_onSecond, Region.ends_putFrom hr]
  rfl

theorem ends_copyInto_of_closed (h : s.closed = true) (r : Region)
    (Q : Except Fault Unit → MemorySource × Region → Prop) :
    copyInto.Ends (s, r) Q ↔ Q (.error .closed) (s, r) := by
  rw [copyInto, ends_gets_bind]
  simp only [h, if_true]
  rfl

/-- A region that only gives bytes is refused and stays as it is. -/
theorem ends_copyInto_of_readOnly (h : s.closed = false) {r : Region} (hr : r.readOnly = true)
    (Q : Except Fault Unit → MemorySource × Region → Prop) :
    copyInto.Ends (s, r) Q ↔ Q (.error (.misuse .readOnlyRegion)) (s, r) := by
  rw [copyInto, ends_gets_bind]
  simp only [h, Bool.false_eq_true, if_false, ends_gets_bind]
  rw [ends_bind, ends_onSecond, Region.ends_putFrom_of_readOnly hr]

/-- The bytes that a copy leaves. -/
theorem drop_copied (s : MemorySource) (room : Nat) :
    s.data.list.drop (s.position + min room (s.data.size - s.position)) =
      (s.data.list.drop s.position).drop room := by
  rw [List.drop_drop]
  by_cases hroom : room ≤ s.data.size - s.position
  · rw [Nat.min_eq_left hroom]
  · rw [List.drop_of_length_le (by rw [Bytes.length_list]; omega),
      List.drop_of_length_le (by rw [Bytes.length_list]; omega)]

end MemorySource

/-! ## A sink over bytes -/

namespace MemorySink

/-- The sink after `bs` were written to its next places. -/
def receive (bs : List UInt8) (s : MemorySink) : MemorySink where
  data := s.data.overwrite s.position (Bytes.ofList bs) 0 bs.length
  position := s.position + bs.length
  closed := s.closed

variable {s : MemorySink} {bs : List UInt8}

@[simp] theorem position_receive : (s.receive bs).position = s.position + bs.length := rfl
@[simp] theorem closed_receive : (s.receive bs).closed = s.closed := rfl

@[simp] theorem list_written (s : MemorySink) : s.written.list = s.data.list.take s.position := by
  simp [written]

theorem list_receive (bs : List UInt8) (s : MemorySink) :
    (s.receive bs).data.list =
      s.data.list.take s.position ++ bs ++ s.data.list.drop (s.position + bs.length) := by
  simp [receive, Bytes.list_overwrite]

@[simp] theorem receive_nil (s : MemorySink) : s.receive [] = s := by
  have h : (s.receive []).data = s.data := by
    apply Bytes.ext_list
    simp [list_receive]
  cases s
  simp_all [receive]

/-- Two writes in a row are one. -/
theorem receive_receive {cs : List UInt8} (h : s.position ≤ s.data.size) :
    (s.receive bs).receive cs = s.receive (bs ++ cs) := by
  have hlength : (s.data.list.take s.position).length = s.position := by
    rw [List.length_take, Bytes.length_list]
    omega
  have hdata : ((s.receive bs).receive cs).data = (s.receive (bs ++ cs)).data := by
    apply Bytes.ext_list
    simp only [list_receive, position_receive]
    rw [List.take_append_of_le_length (by simp [hlength]),
      List.take_of_length_le (by simp [hlength]),
      List.drop_append, List.drop_of_length_le (by simp [hlength])]
    simp only [List.length_append, hlength, List.drop_drop, List.append_assoc, List.nil_append]
    congr 4
    omega
  simp only [receive, mk.injEq] at *
  simp [hdata, Nat.add_assoc]

/-- The sink keeps its number of places. -/
theorem size_receive (h : bs.length ≤ s.available) : (s.receive bs).data.size = s.data.size := by
  cases bs with
  | nil => rw [receive_nil]
  | cons b bs =>
    rw [available, List.length_cons] at h
    rw [← Bytes.length_list, ← Bytes.length_list, list_receive]
    simp only [List.length_append, List.length_take, List.length_drop, List.length_cons,
      Bytes.length_list]
    omega

theorem list_written_receive (h : bs.length ≤ s.available) :
    (s.receive bs).written.list = s.written.list ++ bs := by
  cases bs with
  | nil => rw [receive_nil, List.append_nil]
  | cons b bs =>
    rw [available, List.length_cons] at h
    have hlen : (s.data.list.take s.position ++ b :: bs).length =
        s.position + (b :: bs).length := by
      rw [List.length_append, List.length_take, Bytes.length_list]
      omega
    rw [list_written, list_written, list_receive, position_receive,
      List.take_append_of_le_length (Nat.le_of_eq hlen.symm),
      List.take_of_length_le (Nat.le_of_eq hlen)]

theorem ends_put (h : s.closed = false) (b : UInt8) (Q : Except Fault Unit → MemorySink → Prop) :
    (put b).Ends s Q ↔
      if s.available = 0 then Q (.error .endOfStream) s else Q (.ok ()) (s.receive [b]) := by
  rw [Ends, put]
  simp only [h, Bool.false_eq_true, if_false]
  by_cases hroom : s.position < s.data.size
  · have hbytes : s.data.set! s.position b = (s.receive [b]).data := by
      apply Bytes.ext_list
      rw [Bytes.list_set, list_receive, List.set_eq_take_append_cons_drop,
        if_pos (by rwa [Bytes.length_list])]
      simp
    have havailable : s.available ≠ 0 := by
      rw [available]
      omega
    simp only [hroom, havailable, if_true, if_false, hbytes, h, receive, List.length_singleton]
  · have havailable : s.available = 0 := by
      rw [available]
      omega
    simp only [hroom, havailable, if_true, if_false]

/-- One copy moves as many bytes as there are places left. -/
theorem ends_copyFrom (h : s.closed = false) {r : Region} (hr : r.WellFormed)
    (Q : Except Fault Unit → MemorySink × Region → Prop) :
    copyFrom.Ends (s, r) Q ↔
      Q (.ok ())
        (s.receive (r.window.list.take s.available), r.skip (min s.available r.remaining)) := by
  rcases s with ⟨data, position, closed⟩
  obtain rfl : closed = false := h
  have hlen := hr.length_window
  have hlimit := hr.limit_le
  have hcount : (r.window.list.take (data.size - position)).length =
      min (data.size - position) r.remaining := by
    rw [List.length_take, hlen]
  have hbytes :
      data.overwrite position r.bytes r.position (min (data.size - position) r.remaining) =
      ((⟨data, position, false⟩ : MemorySink).receive
        (r.window.list.take (data.size - position))).data := by
    apply Bytes.ext_list
    rw [list_receive, Bytes.list_overwrite, hcount, Region.list_window, List.take_take,
      Nat.min_assoc]
    congr 3
    have hsize : r.remaining ≤ r.bytes.size - r.position := by
      rw [Region.remaining]
      exact Nat.sub_le_sub_right hlimit _
    omega
  simp only [Ends, copyFrom, Bool.false_eq_true, if_false, hbytes, available]
  simp only [receive, hcount]

theorem ends_copyFrom_of_closed (h : s.closed = true) (r : Region)
    (Q : Except Fault Unit → MemorySink × Region → Prop) :
    copyFrom.Ends (s, r) Q ↔ Q (.error .closed) (s, r) := by
  rcases s with ⟨data, position, closed⟩
  obtain rfl : closed = true := h
  rfl

end MemorySink

/-! ## Sinks without a limit -/

namespace GrowingSink

variable {s : GrowingSink}

theorem ends_push (h : s.closed = false) (b : UInt8) (Q : Except Fault Unit → GrowingSink → Prop) :
    (push b).Ends s Q ↔ Q (.ok ()) { s with bytes := s.bytes.push b } := by
  rcases s with ⟨bytes, closed⟩
  obtain rfl : closed = false := h
  rfl

theorem ends_append (h : s.closed = false) (more : Bytes)
    (Q : Except Fault Unit → GrowingSink → Prop) :
    (append more).Ends s Q ↔ Q (.ok ()) { s with bytes := s.bytes ++ more } := by
  rcases s with ⟨bytes, closed⟩
  obtain rfl : closed = false := h
  rfl

theorem ends_appendWindow (s : GrowingSink) (r : Region)
    (Q : Except Fault Unit → GrowingSink × Region → Prop) :
    appendWindow.Ends (s, r) Q ↔
      if s.closed then Q (.error .closed) (s, r)
      else Q (.ok ()) ({ s with bytes := s.bytes ++ r.window }, r.skip r.remaining) := by
  rcases s with ⟨bytes, closed⟩
  cases closed <;> rfl

end GrowingSink

theorem HashingSink.ends_absorbWindow (s : HashingSink) (r : Region)
    (Q : Except Fault Unit → HashingSink × Region → Prop) :
    absorbWindow.Ends (s, r) Q ↔
      if s.closed then Q (.error .closed) (s, r)
      else
        Q (.ok ())
          ({ s with
              state := s.state.feed r.window.list
              count := s.count + r.window.list.length },
            r.skip r.remaining) := by
  rcases s with ⟨algorithm, state, count, closed⟩
  cases closed <;> rfl

end ByteFlow
