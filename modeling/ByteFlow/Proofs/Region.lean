import ByteFlow.Proofs.Ends
import ByteFlow.Region.Basic

/-!
# Regions as lists of bytes

Bulk operations change a region in two ways only.  A fill writes some bytes at the
front of the window and moves past them; a drain moves past some bytes.  This file
says what both do to the bytes of the region, and that they get along with a window
that was narrowed in between.

## Main definitions

* `Region.receive bs r` — the region after the bytes `bs` were put into the window.
* `Region.Writable` — regions that a fill accepts.
* `Region.narrowed n r` — the window cut down to its first `n` bytes.
-/

namespace ByteFlow.Region

open ByteFlow.Action

/-- A window inside the bytes, which may be written. -/
structure Writable (r : Region) : Prop extends WellFormed r where
  readOnly_eq : r.readOnly = false

/-- The region after `bs` were put at the front of the window, one after the other. -/
def receive (bs : List UInt8) (r : Region) : Region where
  bytes := r.bytes.overwrite r.position (Bytes.ofList bs) 0 bs.length
  readOnly := r.readOnly
  placement := r.placement
  position := r.position + bs.length
  limit := r.limit

/-- The region with a window of at most `n` bytes. -/
def narrowed (n : Nat) (r : Region) : Region := r.setLimit (r.position + min r.remaining n)

variable {r : Region} {bs cs : List UInt8} {n : Nat}

@[simp] theorem size_ofList (bs : List UInt8) : (Bytes.ofList bs).size = bs.length := rfl

/-! ## Bytes of a region -/

@[simp] theorem list_window (r : Region) :
    r.window.list = (r.bytes.list.drop r.position).take r.remaining := by
  rw [window, Bytes.list_extract, List.drop_take, remaining]

@[simp] theorem list_filled (r : Region) : r.filled.list = r.bytes.list.take r.position := by
  simp [filled]

theorem WellFormed.length_window (h : r.WellFormed) : r.window.list.length = r.remaining := by
  have := h.limit_le
  simp only [list_window, List.length_take, List.length_drop, Bytes.length_list, remaining,
    capacity] at *
  omega

theorem WellFormed.remaining_eq_zero (h : r.WellFormed) :
    r.remaining = 0 ↔ r.window.list = [] := by
  rw [← h.length_window, List.length_eq_zero_iff]

@[simp] theorem hasRemaining_iff (r : Region) : r.hasRemaining = true ↔ r.remaining ≠ 0 := by
  simp only [hasRemaining, remaining, decide_eq_true_eq]
  omega

@[simp] theorem hasRemaining_eq_false (r : Region) : r.hasRemaining = false ↔ r.remaining = 0 := by
  simp only [hasRemaining, remaining, decide_eq_false_iff_not]
  omega

/-! ## Putting bytes into the window -/

@[simp] theorem position_receive : (r.receive bs).position = r.position + bs.length := rfl
@[simp] theorem limit_receive : (r.receive bs).limit = r.limit := rfl
@[simp] theorem readOnly_receive : (r.receive bs).readOnly = r.readOnly := rfl
@[simp] theorem placement_receive : (r.receive bs).placement = r.placement := rfl

@[simp] theorem remaining_receive : (r.receive bs).remaining = r.remaining - bs.length := by
  simp only [remaining, position_receive, limit_receive]
  omega

theorem list_receive (bs : List UInt8) (r : Region) :
    (r.receive bs).bytes.list =
      r.bytes.list.take r.position ++ bs ++ r.bytes.list.drop (r.position + bs.length) := by
  simp [receive, Bytes.list_overwrite]

@[simp] theorem receive_nil (r : Region) : r.receive [] = r := by
  have h : (r.receive []).bytes = r.bytes := by
    apply Bytes.ext_list
    simp [list_receive]
  cases r
  simp_all [receive]

/-- Nothing but the window is written, so the region keeps its size. -/
theorem capacity_receive (h : r.WellFormed) (hbs : bs.length ≤ r.remaining) :
    (r.receive bs).capacity = r.capacity := by
  have h₁ := h.position_le
  have h₂ := h.limit_le
  simp only [capacity, remaining, ← Bytes.length_list] at *
  simp only [list_receive, List.length_append, List.length_take, List.length_drop]
  omega

theorem WellFormed.receive (h : r.WellFormed) (hbs : bs.length ≤ r.remaining) :
    (r.receive bs).WellFormed where
  position_le := by
    have := h.position_le
    simp only [position_receive, limit_receive, remaining] at *
    omega
  limit_le := by
    rw [capacity_receive h hbs]
    exact h.limit_le

theorem Writable.receive (h : r.Writable) (hbs : bs.length ≤ r.remaining) :
    (r.receive bs).Writable :=
  ⟨h.toWellFormed.receive hbs, h.readOnly_eq⟩

theorem Writable.receive_one (h : r.Writable) (hroom : r.remaining ≠ 0) (b : UInt8) :
    (r.receive [b]).Writable :=
  h.receive (Nat.pos_of_ne_zero hroom)

theorem remaining_receive_one (b : UInt8) (r : Region) :
    (r.receive [b]).remaining = r.remaining - 1 :=
  remaining_receive

/-- Two puts in a row are one. -/
theorem receive_receive (h : r.WellFormed) :
    (r.receive bs).receive cs = r.receive (bs ++ cs) := by
  have h₁ := h.position_le
  have h₂ := h.limit_le
  have hbytes : ((r.receive bs).receive cs).bytes = (r.receive (bs ++ cs)).bytes := by
    apply Bytes.ext_list
    have hp : (r.bytes.list.take r.position).length = r.position := by
      simp only [List.length_take, Bytes.length_list, capacity] at *
      omega
    simp only [list_receive, position_receive]
    rw [List.take_append_of_le_length (by simp [hp]), List.take_of_length_le (by simp [hp]),
      List.drop_append, List.drop_of_length_le (by simp [hp])]
    simp only [List.length_append, hp, List.drop_drop, List.append_assoc, List.nil_append]
    congr 4
    omega
  simp only [Region.receive, Region.mk.injEq] at *
  simp [hbytes, Nat.add_assoc]

/-- The bytes that were put follow the ones that were there. -/
theorem list_filled_receive (h : r.WellFormed) :
    (r.receive bs).filled.list = r.filled.list ++ bs := by
  have h₁ := h.position_le
  have h₂ := h.limit_le
  have hp : (r.bytes.list.take r.position).length = r.position := by
    simp only [List.length_take, Bytes.length_list, capacity] at *
    omega
  simp only [list_filled, list_receive, position_receive]
  rw [List.take_append_of_le_length (by simp [hp]), List.take_of_length_le (by simp [hp])]

/-- Putting one byte. -/
theorem ends_put (h : r.Writable) (hr : r.remaining ≠ 0) (b : UInt8)
    (Q : Except Fault Unit → Region → Prop) :
    (put b).Ends r Q ↔ Q (.ok ()) (r.receive [b]) := by
  have hlt : r.position < r.bytes.list.length := by
    have := h.limit_le
    simp only [remaining, capacity, Bytes.length_list] at *
    omega
  have hbytes : r.bytes.set! r.position b = (r.receive [b]).bytes := by
    apply Bytes.ext_list
    rw [Bytes.list_set, list_receive, List.set_eq_take_append_cons_drop, if_pos hlt]
    simp
  simp only [Ends, put, Bool.not_eq_true', hasRemaining_eq_false, hr, h.readOnly_eq, if_false,
    Bool.false_eq_true, hbytes, receive, List.length_singleton]

theorem ends_requireWritable (h : r.readOnly = false) (Q : Except Fault Unit → Region → Prop) :
    requireWritable.Ends r Q ↔ Q (.ok ()) r := by
  simp [Ends, requireWritable, h]

theorem ends_stage (h : r.readOnly = false) (src : Bytes) (start : Nat)
    (Q : Except Fault Nat → Region → Prop) :
    (stage src start).Ends r Q ↔
      Q (.ok (min r.remaining (src.size - start)))
        { r with
          bytes := r.bytes.overwrite r.position src start
            (min r.remaining (src.size - start)) } := by
  simp [Ends, stage, h]

/-- Copying bytes takes as many of them as the window has room for. -/
theorem ends_putFrom (h : r.readOnly = false) (src : Bytes) (start : Nat)
    (Q : Except Fault Nat → Region → Prop) :
    (putFrom src start).Ends r Q ↔
      Q (.ok (min r.remaining (src.size - start)))
        (r.receive ((src.list.drop start).take r.remaining)) := by
  have hbytes : r.bytes.overwrite r.position src start (min r.remaining (src.size - start)) =
      (r.receive ((src.list.drop start).take r.remaining)).bytes := by
    apply Bytes.ext_list
    rw [list_receive, Bytes.list_overwrite, List.take_eq_take_min]
    simp
  rw [putFrom, ends_bind, ends_stage h]
  simp [hbytes, receive, skip]

/-- A region that only gives bytes is refused and stays as it is. -/
theorem ends_putFrom_of_readOnly (h : r.readOnly = true) (src : Bytes) (start : Nat)
    (Q : Except Fault Nat → Region → Prop) :
    (putFrom src start).Ends r Q ↔ Q (.error (.misuse .readOnlyRegion)) r := by
  rw [putFrom, ends_bind]
  simp [Ends, stage, h]

/-! ## Narrowed windows -/

theorem narrowed_eq (h : r.WellFormed) (n : Nat) :
    r.narrowed n = { r with limit := r.position + min r.remaining n } := by
  have h₁ := h.position_le
  have h₂ := h.limit_le
  simp only [narrowed, setLimit, Region.mk.injEq, remaining, true_and]
  omega

theorem WellFormed.narrowed (h : r.WellFormed) (n : Nat) : (r.narrowed n).WellFormed := by
  have h₁ := h.position_le
  have h₂ := h.limit_le
  rw [narrowed_eq h]
  refine ⟨?_, ?_⟩ <;> simp only [remaining, capacity] at * <;> omega

theorem Writable.narrowed (h : r.Writable) (n : Nat) : (r.narrowed n).Writable :=
  ⟨h.toWellFormed.narrowed n, h.readOnly_eq⟩

theorem remaining_narrowed (h : r.WellFormed) (n : Nat) :
    (r.narrowed n).remaining = min r.remaining n := by
  rw [narrowed_eq h]
  simp [remaining]

theorem position_narrowed (h : r.WellFormed) (n : Nat) : (r.narrowed n).position = r.position := by
  rw [narrowed_eq h]

/-- What was put into the narrowed window was put into the whole one. -/
theorem setLimit_receive_narrowed (h : r.WellFormed) (hbs : bs.length ≤ min r.remaining n) :
    ((r.narrowed n).receive bs).setLimit r.limit = r.receive bs := by
  have hcap : (r.receive bs).capacity = r.capacity := capacity_receive h (by omega)
  have h₁ := h.position_le
  have h₂ := h.limit_le
  rw [narrowed_eq h]
  simp only [receive, setLimit, Region.mk.injEq, true_and, capacity, remaining] at *
  omega

/-- The bytes that left the narrowed window left the whole one. -/
theorem setLimit_skip_narrowed {k : Nat} (h : r.WellFormed) (hk : k ≤ min r.remaining n) :
    ((r.narrowed n).skip k).setLimit r.limit = r.skip k := by
  have h₁ := h.position_le
  have h₂ := h.limit_le
  rw [narrowed_eq h]
  simp only [skip, setLimit, Region.mk.injEq, true_and, capacity, remaining] at *
  omega

theorem list_window_narrowed (h : r.WellFormed) (n : Nat) :
    (r.narrowed n).window.list = r.window.list.take n := by
  rw [list_window, remaining_narrowed h, list_window, List.take_take, narrowed_eq h, Nat.min_comm]

/-! ## Taking bytes from the window -/

@[simp] theorem skip_zero (r : Region) : r.skip 0 = r := rfl

@[simp] theorem skip_skip (r : Region) (k n : Nat) : (r.skip k).skip n = r.skip (k + n) := by
  simp [skip, Nat.add_assoc]

@[simp] theorem position_skip (r : Region) (n : Nat) : (r.skip n).position = r.position + n := rfl

@[simp] theorem remaining_skip (r : Region) (n : Nat) :
    (r.skip n).remaining = r.remaining - n := by
  simp only [remaining, skip]
  omega

theorem WellFormed.skip (h : r.WellFormed) (hn : n ≤ r.remaining) : (r.skip n).WellFormed := by
  have h₁ := h.position_le
  have h₂ := h.limit_le
  refine ⟨?_, ?_⟩ <;> simp only [Region.skip, remaining, capacity] at * <;> omega

theorem list_window_skip (r : Region) (n : Nat) :
    (r.skip n).window.list = r.window.list.drop n := by
  rw [list_window, list_window, remaining_skip, List.drop_take, List.drop_drop, position_skip]
  rfl

/-- What is seen at the front of the window is its first byte. -/
theorem peek_eq (r : Region) : r.peek = r.window.list.head? := by
  rw [peek, list_window, ← Bytes.getElem?_list, List.head?_eq_getElem?]
  by_cases hr : r.remaining = 0
  · rw [if_neg (by simp [hr]), hr, List.take_zero, List.getElem?_nil]
  · rw [if_pos (by simp [hr]), List.getElem?_take_of_lt (by omega), List.getElem?_drop,
      Nat.add_zero]

/-! ## Turning round -/

theorem writable_allocate (n : Nat) (placement : Placement) :
    (Region.allocate n placement).Writable where
  position_le := Nat.zero_le n
  limit_le := Nat.le_of_eq (Bytes.size_replicate n 0).symm
  readOnly_eq := rfl

theorem wellFormed_wrapReadOnly (bytes : Bytes) : (wrapReadOnly bytes).WellFormed :=
  ⟨Nat.zero_le _, Nat.le_refl _⟩

@[simp] theorem list_window_wrapReadOnly (bytes : Bytes) :
    (wrapReadOnly bytes).window.list = bytes.list := by
  rw [list_window]
  exact List.take_length

theorem WellFormed.clear (r : Region) : r.clear.WellFormed :=
  ⟨Nat.zero_le _, Nat.le_refl _⟩

theorem WellFormed.flip (h : r.WellFormed) : r.flip.WellFormed :=
  ⟨Nat.zero_le _, Nat.le_trans h.position_le h.limit_le⟩

@[simp] theorem remaining_flip (r : Region) : r.flip.remaining = r.position := rfl

@[simp] theorem window_flip (r : Region) : r.flip.window = r.filled := rfl

end ByteFlow.Region
