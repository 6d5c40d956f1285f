import ByteFlow.Proofs.Keeping
import ByteFlow.Proofs.Memory

/-!
# Hazards of a window

Subtracting more than there is, and looking at bytes that are not there, are the two things that
must never come up.  What comes up while a region or an array is looked at are its hazards, and
they are averted as long as the window lies inside the bytes and the position inside the array.

A bulk operation keeps them averted if all it does to a region is to move the start of the window
on, and not beyond its end.

## Main definitions

* `Hazard`, `Hazard.Averted` — a computation that is only defined within bounds.
* `Region.Meets`, `MemorySource.Meets`, `MemorySink.Meets` — the hazards of looking at one.
* `Region.Onward r q` — the window of `r` was moved on to that of `q`.
* `Action.Steady I x` — the operation keeps `I`, and moves windows on.
-/

namespace ByteFlow

open ByteFlow.Action

variable {σ ρ α β : Type}

/-- A computation that is only defined within bounds. -/
inductive Hazard where
  /-- One number is subtracted from another. -/
  | subtract (whole part : Nat)
  /-- The bytes from `start` up to `stop` are looked at, where there are `size` of them. -/
  | slice (start stop size : Nat)

/-- The computation stays within bounds. -/
def Hazard.Averted : Hazard → Prop
  | subtract whole part => part ≤ whole
  | slice start stop size => start ≤ stop ∧ stop ≤ size

namespace Region

variable {r q p : Region} {hazard : Hazard} {n : Nat} {bs : List UInt8}

/-! ## Looking at a region -/

/-- The hazards of looking at a region. -/
inductive Meets (r : Region) : Hazard → Prop
  | remaining : Meets r (.subtract r.limit r.position)
  | window : Meets r (.slice r.position r.limit r.capacity)
  | filled : Meets r (.slice 0 r.position r.capacity)
  | peek : r.hasRemaining = true → Meets r (.slice r.position (r.position + 1) r.capacity)

theorem WellFormed.averted (h : r.WellFormed) (hmeets : r.Meets hazard) : hazard.Averted := by
  have h₁ := h.position_le
  have h₂ := h.limit_le
  cases hmeets with
  | remaining => exact h₁
  | window => exact ⟨h₁, h₂⟩
  | filled => exact ⟨Nat.zero_le _, Nat.le_trans h₁ h₂⟩
  | peek hmore =>
    have hlt : r.position < r.limit := by simpa [hasRemaining] using hmore
    exact ⟨Nat.le_succ _, Nat.le_trans hlt h₂⟩

/-! ## Windows that move on -/

/-- The start of the window was moved on, but not beyond its end.  Bytes are only written where
they may be. -/
structure Onward (r q : Region) : Prop where
  capacity_eq : q.capacity = r.capacity
  readOnly_eq : q.readOnly = r.readOnly
  limit_eq : q.limit = r.limit
  position_le : r.position ≤ q.position
  position_le_limit : q.position ≤ q.limit
  bytes_eq : r.readOnly = true → q.bytes = r.bytes

theorem Onward.refl (h : r.WellFormed) : r.Onward r :=
  ⟨rfl, rfl, rfl, Nat.le_refl _, h.position_le, fun _ => rfl⟩

theorem Onward.trans (h : r.Onward q) (h' : q.Onward p) : r.Onward p where
  capacity_eq := h'.capacity_eq.trans h.capacity_eq
  readOnly_eq := h'.readOnly_eq.trans h.readOnly_eq
  limit_eq := h'.limit_eq.trans h.limit_eq
  position_le := Nat.le_trans h.position_le h'.position_le
  position_le_limit := h'.position_le_limit
  bytes_eq hr := (h'.bytes_eq (h.readOnly_eq.trans hr)).trans (h.bytes_eq hr)

theorem Onward.wellFormed (h : r.Onward q) (hr : r.WellFormed) : q.WellFormed where
  position_le := h.position_le_limit
  limit_le := by
    rw [h.limit_eq, h.capacity_eq]
    exact hr.limit_le

theorem Writable.onward_receive (h : r.Writable) (hbs : bs.length ≤ r.remaining) :
    r.Onward (r.receive bs) where
  capacity_eq := capacity_receive h.toWellFormed hbs
  readOnly_eq := rfl
  limit_eq := rfl
  position_le := Nat.le_add_right ..
  position_le_limit := (h.toWellFormed.receive hbs).position_le
  bytes_eq hr := nomatch h.readOnly_eq.symm.trans hr

theorem WellFormed.onward_skip (h : r.WellFormed) (hn : n ≤ r.remaining) :
    r.Onward (r.skip n) where
  capacity_eq := rfl
  readOnly_eq := rfl
  limit_eq := rfl
  position_le := Nat.le_add_right ..
  position_le_limit := (h.skip hn).position_le
  bytes_eq _ := rfl

/-- A window that was narrowed to at most `n` bytes moves on by no more than these. -/
theorem Onward.moved_le (h : (r.narrowed n).Onward q) (hr : r.WellFormed) :
    r.position ≤ q.position ∧ q.position - r.position ≤ n := by
  have h₁ := h.position_le
  have h₂ := h.position_le_limit
  rw [position_narrowed hr] at h₁
  rw [h.limit_eq, narrowed_eq hr] at h₂
  dsimp only at h₂
  omega

/-- Widened again, the window has moved on as far as the narrowed one. -/
theorem Onward.widen (h : (r.narrowed n).Onward q) (hr : r.WellFormed) :
    r.Onward (q.setLimit r.limit) ∧ (q.setLimit r.limit).position = q.position := by
  have h₁ := hr.position_le
  have h₂ := hr.limit_le
  have hcapacity : q.capacity = r.capacity := h.capacity_eq.trans (by rw [narrowed_eq hr]; rfl)
  have hend := h.position_le_limit
  rw [h.limit_eq, narrowed_eq hr] at hend
  have hstart := h.position_le
  rw [position_narrowed hr] at hstart
  have hlimit : (q.setLimit r.limit).limit = r.limit := by
    simp only [setLimit, hcapacity]
    omega
  have hposition : (q.setLimit r.limit).position = q.position := by
    simp only [setLimit, hcapacity, remaining] at *
    omega
  refine ⟨⟨hcapacity, h.readOnly_eq, hlimit, ?_, ?_, h.bytes_eq⟩, hposition⟩
  · rwa [hposition]
  · simp only [hposition, hlimit, remaining] at *
    omega

/-- Whatever the end is set to, the window lies inside the bytes. -/
theorem wellFormed_setLimit (r : Region) (n : Nat) : (r.setLimit n).WellFormed :=
  ⟨Nat.min_le_right .., Nat.min_le_right ..⟩

end Region

/-! ## Looking at an array -/

/-- The hazards of looking at what a source in memory has left. -/
inductive MemorySource.Meets (s : MemorySource) : Hazard → Prop
  | available : Meets s (.subtract s.data.size s.position)
  | rest : Meets s (.slice s.position s.data.size s.data.size)

/-- The hazards of looking at what a sink in memory has, and has room for. -/
inductive MemorySink.Meets (s : MemorySink) : Hazard → Prop
  | available : Meets s (.subtract s.data.size s.position)
  | space : Meets s (.slice s.position s.data.size s.data.size)
  | written : Meets s (.slice 0 s.position s.data.size)

theorem MemorySource.Meets.averted {s : MemorySource} {hazard : Hazard}
    (h : s.position ≤ s.data.size) (hmeets : s.Meets hazard) : hazard.Averted := by
  cases hmeets with
  | available => exact h
  | rest => exact ⟨h, Nat.le_refl _⟩

theorem MemorySink.Meets.averted {s : MemorySink} {hazard : Hazard}
    (h : s.position ≤ s.data.size) (hmeets : s.Meets hazard) : hazard.Averted := by
  cases hmeets with
  | available => exact h
  | space => exact ⟨h, Nat.le_refl _⟩
  | written => exact ⟨Nat.zero_le _, h⟩

/-! ## Operations that move windows on -/

/-- The operation keeps the property of the stream, and moves the window of the region on. -/
def Action.Steady (I : σ → Prop) (x : Action (σ × Region) α) : Prop :=
  ∀ r : Region, r.WellFormed → Keeps (fun p => I p.1 ∧ r.Onward p.2) x

namespace Action.Steady

variable {I : σ → Prop} {x : Action (σ × Region) α}

/-- It is enough to look at regions that have not moved yet. -/
theorem of_ends (h : ∀ s r, I s → r.WellFormed → x.Ends (s, r) fun _ p => I p.1 ∧ r.Onward p.2) :
    Steady I x := by
  rintro r hr ⟨s, q⟩ ⟨hs, hq⟩
  refine (h s q hs (hq.wellFormed hr)).mono ?_
  rintro answer p ⟨hp, honward⟩
  exact ⟨hp, hq.trans honward⟩

theorem ends (h : Steady I x) {s : σ} {r : Region} (hs : I s) (hr : r.WellFormed) :
    x.Ends (s, r) fun _ p => I p.1 ∧ r.Onward p.2 :=
  h r hr (s, r) ⟨hs, .refl hr⟩

/-- A bulk operation on a region that exists only for its duration. -/
theorem alongside (h : Steady I x) {r : Region} (hr : r.WellFormed) :
    Keeps I (Action.alongside r x) := by
  intro s hs
  rw [ends_alongside]
  exact (h.ends hs hr).mono fun _ _ hp => hp.1

theorem fillCompletely {fill : Action (σ × Region) Unit} (h : Steady I fill) :
    Steady I (Source.fillCompletely fill) := by
  intro r hr
  refine (h r hr).bind fun _ => (Keeps.gets _).bind fun more => ?_
  cases more with
  | false => exact .pure ()
  | true => exact .fail _

theorem drainCompletely {drain : Action (σ × Region) Unit} (h : Steady I drain) (bytes : Bytes) :
    Keeps I (Sink.drainCompletely drain bytes) :=
  (h.fillCompletely.alongside (Region.wellFormed_wrapReadOnly bytes)).bind fun _ => .pure ()

end Action.Steady

end ByteFlow
