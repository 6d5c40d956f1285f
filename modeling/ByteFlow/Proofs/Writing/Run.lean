import ByteFlow.Proofs.Codec.Scalar
import ByteFlow.Proofs.Meter.Leaves
import ByteFlow.Proofs.Writing.Basic

/-!
# Runs of writes

How much room there is settles what a sink makes of a run of writes: which of them fail, how
many bytes are left over by a drain, and which bytes arrive.  A run does not stop on a
failure, but once a write has failed there is no room left for the others.

The bytes that arrive in a tree are in its endpoints.  An array takes them at its next
places, and what stands behind these stays as it was.

## Main definitions

* `Offer`, `Receipt` — a write, and what the sink says to it.
* `Offer.perform`, `Offer.performAll` — writes to a sink.
* `Offer.receipt`, `Offer.receipts` — the same writes when there is room for so many bytes.
* `MemorySink.slate` — what was written to an array, and what was not.
* `Tree.takes_performAll` — a tree takes the bytes for which it has room.
-/

namespace ByteFlow

open ByteFlow.Action

/-- A write of any kind. -/
inductive Offer where
  /-- One value of a fixed width. -/
  | scalar (kind : Scalar) (v : kind.Val)
  | bytes (data : Bytes)
  | units (us : Array UInt16)
  /-- As many bytes of a window as there is room for. -/
  | drain (region : Region) (wellFormed : region.WellFormed)

/-- What a sink says to a write. -/
inductive Receipt where
  | written (answer : Except Fault Unit)
  /-- The region holds the bytes that were not taken. -/
  | drained (answer : Except Fault Unit) (region : Region)

namespace Offer

variable {σ : Type}

/-- The bytes that are to be written. -/
def content : Offer → List UInt8
  | scalar kind v => kind.encode v
  | bytes data => data.list
  | units us => unitBytes us.toList
  | drain region _ => region.window.list

/-- Offer the bytes to a sink. -/
def perform [Sink σ] : Offer → Action σ Receipt
  | scalar kind v => do
    let answer ← attempt (kind.write v)
    pure (.written answer)
  | bytes data => do
    let answer ← attempt (Sink.writeBytes data)
    pure (.written answer)
  | units us => do
    let answer ← attempt (Sink.writeUnits us)
    pure (.written answer)
  | drain region _ => do
    let (answer, region) ← alongside region (attempt Sink.drain)
    pure (.drained answer region)

/-- Offer bytes to a sink again and again, whatever it says. -/
def performAll [Sink σ] : List Offer → Action σ (List Receipt)
  | [] => pure []
  | offer :: others => do
    let receipt ← offer.perform
    let receipts ← performAll others
    pure (receipt :: receipts)

/-- What is said when there is room for so many bytes.  Only a drain is content with less room
than it needs. -/
noncomputable def receipt (room : ℕ∞) : Offer → Receipt
  | drain region _ => .drained (.ok ()) (region.skip (fitting room region.window.list).length)
  | offer =>
    .written (if (offer.content.length : ℕ∞) ≤ room then .ok () else .error .endOfStream)

/-- What is said to writes in a row, each of which finds the room that the ones before it have
left. -/
noncomputable def receipts (room : ℕ∞) : List Offer → List Receipt
  | [] => []
  | offer :: others => offer.receipt room :: receipts (room - offer.content.length) others

variable [Openness σ] [Meter σ] [Capacity σ]

/-- A write is settled by the room that there is for it. -/
theorem ends_written {x : Action σ Unit} {bs : List UInt8} (h : Pushes x bs) {s : σ}
    (hs : IsOpen s) :
    (attempt x >>= fun answer => pure (Receipt.written answer)).Ends s fun answer t =>
      answer = .ok (.written
          (if (bs.length : ℕ∞) ≤ capacity s then .ok () else .error .endOfStream)) ∧
        Takes s (fitting (capacity s) bs) t := by
  rw [ends_attempt_bind]
  refine (h.ends hs).mono ?_
  rintro answer t ⟨rfl, ht⟩
  exact ⟨rfl, ht⟩

variable [Sink σ] [ThoroughSink σ]

/-- One write takes the bytes for which there is room. -/
theorem ends_perform (offer : Offer) {s : σ} (hs : IsOpen s) :
    offer.perform.Ends s fun answer t =>
      answer = .ok (offer.receipt (capacity s)) ∧
        Takes s (fitting (capacity s) offer.content) t := by
  cases offer with
  | scalar kind v =>
    refine ends_written ?_ hs
    rw [kind.write_eq]
    exact Puts.pushes_writeList LawfulSink.writeU8 _
  | bytes data => exact ends_written (ThoroughSink.pushes_writeBytes data) hs
  | units us => exact ends_written (ThoroughSink.pushes_writeUnits us) hs
  | drain region wellFormed =>
    simp only [perform, bind_pure_comp, ends_map, ends_alongside, ends_attempt]
    refine (LawfulSink.drain s region hs wellFormed).of_answer ?_
    rintro ⟨t, q⟩ ⟨n, hn, ht, rfl, hend⟩
    have hlength : (region.window.list.take n).length = n := by
      rw [List.length_take, wellFormed.length_window]
      omega
    -- the bytes taken are all of them, or as many as there was room for
    have hfitting : fitting (capacity s) region.window.list = region.window.list.take n := by
      rcases hend with rfl | hzero
      · rw [ht.2.2, hlength, ← wellFormed.length_window, List.take_length]
        exact fitting_of_le le_self_add
      · rw [ht.2.2, hzero, add_zero, hlength, fitting_coe]
    rw [receipt, content, hfitting, hlength]
    exact ⟨rfl, ht⟩

/-- A run of writes takes the bytes for which there is room, in one piece. -/
theorem ends_performAll (offers : List Offer) {s : σ} (hs : IsOpen s) :
    (performAll offers).Ends s fun answer t =>
      answer = .ok (receipts (capacity s) offers) ∧
        Takes s (fitting (capacity s) (offers.flatMap content)) t := by
  induction offers generalizing s with
  | nil =>
    refine ⟨rfl, ?_⟩
    rw [List.flatMap_nil, fitting, List.take_nil]
    exact .refl hs
  | cons offer others ih =>
    simp only [performAll, bind_pure_comp, ends_bind]
    refine (offer.ends_perform hs).of_answer ?_
    intro t ht
    simp only [ends_map]
    refine (ih ht.1).of_answer ?_
    intro u hu
    rw [ht.capacity_eq] at hu
    rw [ht.capacity_eq, List.flatMap_cons, fitting_append]
    exact ⟨rfl, ht.trans hu⟩

end Offer

/-! ## Arrays -/

namespace MemorySink

/-- The bytes were added to the ones written before, and the places behind them are as they
were. -/
structure Extends (s : MemorySink) (bs : List UInt8) (t : MemorySink) : Prop where
  list_written : t.written.list = s.written.list ++ bs
  position_eq : t.position = s.position + bs.length
  size_eq : t.data.size = s.data.size
  list_behind : t.data.list.drop t.position = s.data.list.drop t.position

theorem Extends.trans {s t u : MemorySink} {bs cs : List UInt8} (h : Extends s bs t)
    (h' : Extends t cs u) : Extends s (bs ++ cs) u where
  list_written := by rw [h'.list_written, h.list_written, List.append_assoc]
  position_eq := by rw [h'.position_eq, h.position_eq, List.length_append, Nat.add_assoc]
  size_eq := h'.size_eq.trans h.size_eq
  list_behind := by
    have hbehind := congrArg (List.drop cs.length) h.list_behind
    rw [List.drop_drop, List.drop_drop, ← h'.position_eq] at hbehind
    rw [h'.list_behind, hbehind]

/-- An array is metered by what was written to it, and by what was not. -/
@[reducible] def slate : Meter MemorySink where
  Moved := Extends
  refl _ := ⟨(List.append_nil _).symm, rfl, rfl, rfl⟩
  trans := .trans

theorem extends_receive {s : MemorySink} {bs : List UInt8} (h : bs.length ≤ s.available) :
    Extends s bs (s.receive bs) where
  list_written := list_written_receive h
  position_eq := rfl
  size_eq := size_receive h
  list_behind := by
    cases bs with
    | nil => rw [receive_nil]
    | cons b bs =>
      rw [available, List.length_cons] at h
      have hlength : (s.data.list.take s.position ++ b :: bs).length =
          s.position + (b :: bs).length := by
        rw [List.length_append, List.length_take, Bytes.length_list]
        omega
      rw [list_receive, position_receive, ← hlength, List.drop_left]

theorem meteredSink_slate : @MeteredSink MemorySink _ slate := by
  let _ := slate
  have hclose (s : MemorySink) : s.Extends [] { s with closed := true } :=
    ⟨(List.append_nil _).symm, rfl, rfl, rfl⟩
  exact { close := hclose, flush := quiet_pure (), drain := drains_copyFrom extends_receive }

end MemorySink

/-- The bytes were added behind the ones that an array or a list holds. -/
def Inscribed : MemorySink ⊕ GrowingSink → List UInt8 → MemorySink ⊕ GrowingSink → Prop
  | .inl s, bs, .inl t => s.Extends bs t
  | .inr s, bs, .inr t => t.bytes.list = s.bytes.list ++ bs
  | _, _, _ => False

/-- A tree over arrays and lists takes the bytes of a run of writes for which it has room.
Which of the writes fail is settled by the room, the endpoints have the bytes from left to
right, and the room is less by their number. -/
theorem Tree.takes_performAll {n : Nat} {t : Tree StandardPolicy (MemorySink ⊕ GrowingSink) n}
    (ht : IsOpen t) (offers : List Offer) :
    (Offer.performAll offers).Ends t fun answer u =>
      answer = .ok (Offer.receipts (capacity t) offers) ∧ IsOpen u ∧
      ∃ shares : List (Share (MemorySink ⊕ GrowingSink)),
        shares.map Share.before = t.leaves ∧ shares.map Share.after = u.leaves ∧
        shares.flatMap Share.bytes = fitting (capacity t) (offers.flatMap Offer.content) ∧
        (∀ share ∈ shares, Inscribed share.before share.bytes share.after) ∧
        capacity t = (shares.flatMap Share.bytes).length + capacity u ∧
        (capacity t = 0 → capacity u = 0) := by
  let _ := MemorySink.slate
  have := MemorySink.thoroughSink MemorySink.extends_receive
  have : MeteredSink MemorySink := MemorySink.meteredSink_slate
  refine (Offer.ends_performAll offers ht).mono ?_
  rintro answer u ⟨rfl, hu, hmoved, hcapacity⟩
  obtain ⟨shares, hbefore, hafter, hbytes, hshares⟩ := shares_of_moved hmoved
  refine ⟨rfl, hu, shares, hbefore, hafter, hbytes, ?_, by rwa [hbytes], ?_⟩
  · rintro ⟨before, bytes, after⟩ hshare
    have hmoved := hshares _ hshare
    rcases before with s | s <;> rcases after with t | t
    · exact hmoved
    · exact hmoved
    · exact hmoved
    · exact hmoved
  · intro hzero
    rw [hcapacity] at hzero
    exact (add_eq_zero.1 hzero).2

/-- The quota of the first member cuts a value in two, and the last byte finds no room. -/
theorem Tree.takes_performAll_chain :
    let t : Tree StandardPolicy (MemorySink ⊕ GrowingSink) 3 :=
      Layer.chain (.new .close
        [Layer.quota (Sink.bounded 1 (Layer.endpoint (.inl { data := Bytes.ofList [0, 0] }))),
          Layer.closing (Sink.withPolicy .fence
            (Layer.endpoint (.inl { data := Bytes.ofList [0, 0, 0] })))])
    let r := Region.wrapReadOnly (Bytes.ofList [3, 4, 5])
    let offers : List Offer := [.scalar .u16 (0x0102 : UInt16),
      .drain r (Region.wellFormed_wrapReadOnly _), .bytes (Bytes.ofList [6])]
    IsOpen t ∧ (Offer.performAll offers).Ends t fun answer u =>
      answer = .ok [.written (.ok ()), .drained (.ok ()) (r.skip 2),
        .written (.error .endOfStream)] ∧
      ∃ shares : List (Share (MemorySink ⊕ GrowingSink)), shares.map Share.after = u.leaves ∧
        shares.flatMap Share.bytes = [1, 2, 3, 4] := by
  intro t r offers
  have ht : IsOpen t := by
    refine (isOpen_chain_new _ _).2 (List.forall_mem_cons.2 ⟨?_, List.forall_mem_singleton.2 ?_⟩)
    · exact rfl
    · exact ⟨rfl, rfl⟩
  have hcapacity : capacity t = (4 : Nat) := by
    change min ((1 : Nat) : ℕ∞) ((2 : Nat) : ℕ∞) + (((3 : Nat) : ℕ∞) + 0) = (4 : Nat)
    norm_num
  refine ⟨ht, (takes_performAll ht offers).mono ?_⟩
  rintro answer u ⟨rfl, hu, shares, hbefore, hafter, hbytes, hshares, hroom, hzero⟩
  rw [hcapacity] at hbytes ⊢
  refine ⟨?_, shares, hafter, ?_⟩
  · change Except.ok [Offer.receipt (4 : Nat) (.scalar .u16 _),
      Offer.receipt ((4 : Nat) - (2 : Nat)) (.drain r _),
      Offer.receipt ((4 : Nat) - (2 : Nat) - (3 : Nat)) (.bytes _)] = _
    simp only [← ENat.natCast_sub, Offer.receipt, fitting_coe, Nat.cast_le]
    rw [if_pos (by decide), if_neg (by decide)]
    rfl
  · rw [hbytes, fitting_coe]
    decide +kernel

end ByteFlow
