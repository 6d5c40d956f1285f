import ByteFlow.Proofs.Meter.Leaves

/-!
# Bytes between a tree and a region

Bulk operations carry bytes between a tree and a region.  On the one side they went through the
endpoints of the tree, and through the quotas above these.  On the other side the window of the
region has moved by so many bytes, and that this is all that happened to the region is said place
by place.

## Main definitions

* `Tree.Crossed t bs u` — the bytes that went through a tree, with nothing left out.
* `Tree.crossed_of_moved` — whatever went through a tree crossed it in this sense.
* `Region.Received r bs q` — the bytes came into the window, and nothing else changed.
* `Region.Released r bs q` — the window moved past the bytes, and nothing else changed.
-/

namespace ByteFlow

variable {P L : Type}

/-- The bytes crossed the tree: they are those that went through its endpoints, from left to
right, and every quota is less by those that went through the endpoints under it. -/
def Tree.Crossed [Meter L] {n : Nat} (t : Tree P L n) (bs : List UInt8) (u : Tree P L n) : Prop :=
  ∃ shares, bs = shares.flatMap Share.bytes ∧ Covers shares t.leaves u.leaves ∧
    t.Itemized shares u

/-- What went through a tree crossed it. -/
theorem Tree.crossed_of_moved [Meter L] {n : Nat} {t u : Tree P L n} {bs : List UInt8}
    (h : Moved t bs u) : t.Crossed bs u := by
  obtain ⟨shares, hshares, hbytes⟩ := itemized_of_moved h
  exact ⟨shares, hbytes.symm, hshares.covers, hshares⟩

/-- Nothing else crossed a tree whose endpoints remember. -/
theorem Tree.Crossed.iff [Meter L] [Faithful L] {n : Nat} {t u : Tree P L n}
    {bs : List UInt8} (h : t.Crossed bs u) (cs : List UInt8) : t.Crossed cs u ↔ cs = bs := by
  constructor
  · rintro ⟨more, rfl, hmore, -⟩
    obtain ⟨shares, rfl, hshares, -⟩ := h
    rw [hmore.unique hshares]
  · rintro rfl
    exact h

/-! ## What the region shows -/

/-- The bytes of a region from one place up to another. -/
def Region.between (start stop : Nat) (r : Region) : List UInt8 :=
  Bytes.list (r.bytes.extract start stop)

/-- The bytes came into the window, and nothing else changed. -/
structure Region.Received (r : Region) (bs : List UInt8) (q : Region) : Prop where
  limit_eq : q.limit = r.limit
  capacity_eq : q.capacity = r.capacity
  placement_eq : q.placement = r.placement
  readOnly_eq : q.readOnly = r.readOnly
  position_eq : q.position = r.position + bs.length
  position_le : q.position ≤ q.limit
  before : q.bytes.list.take r.position = r.bytes.list.take r.position
  between : q.between r.position q.position = bs
  behind : q.bytes.list.drop q.position = r.bytes.list.drop q.position

theorem Region.WellFormed.received {r : Region} (hr : r.WellFormed) {bs : List UInt8}
    (hbs : bs.length ≤ r.remaining) : r.Received bs (r.receive bs) := by
  have hposition : (r.bytes.list.take r.position).length = r.position := by
    rw [List.length_take, Bytes.length_list]
    exact Nat.min_eq_left (Nat.le_trans hr.position_le hr.limit_le)
  have hfront : (r.bytes.list.take r.position ++ bs).length = r.position + bs.length := by
    rw [List.length_append, hposition]
  refine ⟨rfl, capacity_receive hr hbs, rfl, rfl, rfl, (hr.receive hbs).position_le, ?_, ?_, ?_⟩
  · rw [list_receive, List.append_assoc, List.take_left' hposition]
  · rw [between, Bytes.list_extract, list_receive, position_receive, List.take_left' hfront,
      List.drop_left' hposition]
  · rw [list_receive, position_receive, List.drop_left' hfront]

/-- The window moved past the bytes at its front, and nothing else changed. -/
structure Region.Released (r : Region) (bs : List UInt8) (q : Region) : Prop where
  bytes_eq : q.bytes = r.bytes
  limit_eq : q.limit = r.limit
  capacity_eq : q.capacity = r.capacity
  placement_eq : q.placement = r.placement
  readOnly_eq : q.readOnly = r.readOnly
  position_eq : q.position = r.position + bs.length
  position_le : q.position ≤ q.limit
  between : r.between r.position q.position = bs

theorem Region.WellFormed.released {r : Region} (hr : r.WellFormed) {n : Nat}
    (hn : n ≤ r.remaining) : r.Released (r.window.list.take n) (r.skip n) := by
  have hlength : (r.window.list.take n).length = n := by
    rw [List.length_take, hr.length_window, Nat.min_eq_left hn]
  refine ⟨rfl, rfl, rfl, rfl, rfl, ?_, (hr.skip hn).position_le, ?_⟩
  · rw [hlength, position_skip]
  · rw [between, Bytes.list_extract, list_window, position_skip, List.take_take,
      Nat.min_eq_left hn, List.drop_take, Nat.add_sub_cancel_left]

end ByteFlow
