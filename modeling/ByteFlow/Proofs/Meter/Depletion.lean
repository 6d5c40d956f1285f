import ByteFlow.Proofs.Meter.Endpoint
import ByteFlow.Scripted.Device

/-!
# Supplies go down

The supply of a source is a number that its bytes can be counted against.  Where it goes
down by every byte that comes out, nothing that takes bytes in turn can go on for longer
than the supply.

## Main definitions

* `Depletes` — sources whose supply goes down by the bytes that come out.
* `DepletingDevice`, `DepletingSource` — what a device and a stream from outside have to
  promise for it, call by call.
-/

namespace ByteFlow

open Supply

variable {P L D S σ : Type}

/-- A source whose supply goes down by the bytes that come out of it. -/
class Depletes (σ : Type) [Meter σ] [Supply σ] : Prop where
  length_add_supply_le : ∀ {s t : σ} {bs : List UInt8}, Moved s bs t →
    bs.length + supply t ≤ supply s

/-- A device whose supply goes down by what it gives. -/
class DepletingDevice (D : Type) [InputDevice D] [Supply D] : Prop where
  supply_read : ∀ {room : Nat} {d d' : D} {given : Bytes},
    InputDevice.read room d = (.ok given, d') → given.size + supply d' ≤ supply d
  supply_fault : ∀ {room : Nat} {d d' : D} {e : IoError},
    InputDevice.read room d = (.error e, d') → supply d' ≤ supply d

/-- A source whose supply goes down by the bytes that are read one by one. -/
class DepletingSource (S : Type) [Source S] [Supply S] : Prop where
  supply_read : ∀ {s : S} {b : UInt8}, ((Source.readU8 : Action S UInt8).run s).answer = .ok b →
    supply ((Source.readU8 : Action S UInt8).run s).state < supply s
  supply_fault : ∀ {s : S} {fault : Fault},
    ((Source.readU8 : Action S UInt8).run s).answer = .error fault →
      supply ((Source.readU8 : Action S UInt8).run s).state ≤ supply s
  supply_close : ∀ s : S, supply ((Closeable.close : Action S Unit).run s).state ≤ supply s

/-! ## Endpoints -/

theorem InputDevice.Trail.length_add_supply_le [InputDevice D] [Supply D] [DepletingDevice D]
    {d d' : D} {bs : List UInt8} (h : Trail d bs d') : bs.length + supply d' ≤ supply d := by
  induction h with
  | refl d => exact Nat.le_of_eq (Nat.zero_add _)
  | read hread _ ih =>
    have hgiven := DepletingDevice.supply_read hread
    rw [List.length_append, Bytes.length_list]
    omega
  | fault hread _ ih => exact Nat.le_trans ih (DepletingDevice.supply_fault hread)

theorem Source.Trail.length_add_supply_le [Source S] [Supply S] [DepletingSource S] {s t : S}
    {bs : List UInt8} (h : Trail s bs t) : bs.length + supply t ≤ supply s := by
  induction h with
  | refl s => exact Nat.le_of_eq (Nat.zero_add _)
  | read hread _ ih =>
    have hless := DepletingSource.supply_read hread
    rw [List.length_cons]
    omega
  | fault hread _ ih => exact Nat.le_trans ih (DepletingSource.supply_fault hread)
  | close _ ih => exact Nat.le_trans ih (DepletingSource.supply_close _)

instance : Depletes Empty where
  length_add_supply_le {s} := nomatch s

instance : Depletes MemorySource where
  length_add_supply_le {s t bs} h := by
    have hlength := congrArg List.length h.2
    rw [h.1, List.length_append, List.length_drop, List.length_drop, Bytes.length_list] at hlength
    change bs.length + (t.data.size - t.position) ≤ s.data.size - s.position
    rw [h.1]
    omega

instance [InputDevice D] [Supply D] [DepletingDevice D] : Depletes (DeviceSource D) where
  length_add_supply_le := InputDevice.Trail.length_add_supply_le

instance [InputDevice D] [Supply D] [DepletingDevice D] [Source S] [Supply S]
    [DepletingSource S] : Depletes (SourceEnd D S) where
  length_add_supply_le {s t bs} h := by
    refine SourceEnd.moved_cases (motive := fun s t => bs.length + supply t ≤ supply s) h
      ?_ ?_ ?_
    · intro s t hs
      exact Depletes.length_add_supply_le (s := s) hs
    · intro s t hs
      exact Depletes.length_add_supply_le (s := s) hs
    · intro s t hs
      exact Source.Trail.length_add_supply_le (s := s) hs

instance : DepletingDevice ScriptedInput where
  supply_read {room d d' given} h := by
    rcases d with ⟨_ | ⟨entry, rest⟩⟩
    · simp only [InputDevice.read, ScriptedInput.read, Prod.mk.injEq, Except.ok.injEq] at h
      obtain ⟨rfl, rfl⟩ := h
      simp
    · cases entry with
      | pause =>
        simp only [InputDevice.read, ScriptedInput.read, Prod.mk.injEq, Except.ok.injEq] at h
        obtain ⟨rfl, rfl⟩ := h
        simp [supply, ScriptedInput.bytesLeft]
      | fault e => simp [InputDevice.read, ScriptedInput.read] at h
      | data bytes =>
        simp only [InputDevice.read, ScriptedInput.read] at h
        split at h
        · simp only [Prod.mk.injEq, Except.ok.injEq] at h
          obtain ⟨rfl, rfl⟩ := h
          simp [supply, ScriptedInput.bytesLeft]
        · simp only [Prod.mk.injEq, Except.ok.injEq] at h
          obtain ⟨rfl, rfl⟩ := h
          simp only [supply, ScriptedInput.bytesLeft, List.foldr_cons, ByteArray.size_extract]
          omega
  supply_fault {room d d' e} h := by
    rcases d with ⟨_ | ⟨entry, rest⟩⟩
    · simp [InputDevice.read, ScriptedInput.read] at h
    · cases entry with
      | pause => simp [InputDevice.read, ScriptedInput.read] at h
      | fault e =>
        simp only [InputDevice.read, ScriptedInput.read, Prod.mk.injEq] at h
        obtain ⟨-, rfl⟩ := h
        exact Nat.le_refl _
      | data bytes =>
        simp only [InputDevice.read, ScriptedInput.read] at h
        split at h <;> simp at h

/-- A byte that is read was in front of the end of the data. -/
theorem FaultySource.lt_size_of_next {s : FaultySource} {b : UInt8}
    (h : (next.run s).answer = .ok b) :
    s.position < s.data.size ∧ supply (next.run s).state = s.data.size - (s.position + 1) := by
  simp only [next] at h ⊢
  by_cases hcloses : 0 < s.closes
  · simp [hcloses] at h
  · simp only [hcloses, if_false] at h ⊢
    rcases hspring : Trap.spring s.position s.traps with _ | ⟨fault, traps⟩
    · rcases hbyte : s.data[s.position]? with _ | c
      · simp [hspring, hbyte] at h
      · have hlt : s.position < s.data.size := (getElem?_eq_some_iff.1 hbyte).1
        exact ⟨hlt, rfl⟩
    · simp [hspring] at h

theorem FaultySource.supply_of_next_error {s : FaultySource} {fault : Fault}
    (h : (next.run s).answer = .error fault) : supply (next.run s).state = supply s := by
  simp only [next] at h ⊢
  by_cases hcloses : 0 < s.closes
  · simp [hcloses]
  · simp only [hcloses, if_false] at h ⊢
    rcases hspring : Trap.spring s.position s.traps with _ | ⟨other, traps⟩
    · rcases hbyte : s.data[s.position]? with _ | b
      · rfl
      · simp [hspring, hbyte] at h
    · rfl

instance : DepletingSource FaultySource where
  supply_read {s b} h := by
    have hnext := FaultySource.lt_size_of_next h
    change supply (FaultySource.next.run s).state < s.data.size - s.position
    omega
  supply_fault h := Nat.le_of_eq (FaultySource.supply_of_next_error h)
  supply_close s := Nat.le_refl _

/-! ## Trees -/

section Layers

variable [Meter σ] [Supply σ] [Depletes σ]

instance : Depletes (Quota σ) where
  length_add_supply_le {q q' bs} h := by
    have hinner := Depletes.length_add_supply_le h.1
    have hcount := h.2
    change bs.length + min q'.remaining (supply q'.inner) ≤ min q.remaining (supply q.inner)
    omega

instance : Depletes (Traced σ) where
  length_add_supply_le := Depletes.length_add_supply_le (σ := σ)

instance : Depletes (Relay σ) where
  length_add_supply_le := Depletes.length_add_supply_le (σ := σ)

instance : Depletes (Closing P σ) where
  length_add_supply_le := Depletes.length_add_supply_le (σ := σ)

/-- The members ahead count, and a chain only ever has fewer of them. -/
theorem Chain.Trail.length_add_supply_le {left ahead left' ahead' : List σ} {bs : List UInt8}
    (h : Trail left ahead bs left' ahead') :
    bs.length + ahead'.foldr (fun m others => supply m + others) 0 ≤
      ahead.foldr (fun m others => supply m + others) 0 := by
  induction h with
  | refl left ahead => exact Nat.le_of_eq (Nat.zero_add _)
  | active hm _ ih =>
    have hactive := Depletes.length_add_supply_le hm
    rw [List.foldr_cons] at ih ⊢
    rw [List.length_append]
    omega
  | leave _ ih =>
    rw [List.foldr_cons]
    omega
  | last _ _ ih => exact ih

instance : Depletes (Chain P σ) where
  length_add_supply_le := Chain.Trail.length_add_supply_le

instance [Meter L] [Supply L] [Depletes L] : Depletes (Layer P L σ) where
  length_add_supply_le {s t bs} h := by
    refine Layer.moved_cases (motive := fun s t => bs.length + supply t ≤ supply s) h
      ?_ ?_ ?_ ?_ ?_ ?_
    · intro s t hs
      exact Depletes.length_add_supply_le (s := s) hs
    · intro s t hs
      exact Depletes.length_add_supply_le (s := s) hs
    · intro s t hs
      exact Depletes.length_add_supply_le (s := s) hs
    · intro s t hs
      exact Depletes.length_add_supply_le (s := s) hs
    · intro s t hs
      exact Depletes.length_add_supply_le (s := s) hs
    · intro s t hs
      exact Depletes.length_add_supply_le (s := s) hs

end Layers

instance Tree.instDepletes [Meter L] [Supply L] [Depletes L] : (n : Nat) → Depletes (Tree P L n)
  | 0 => inferInstanceAs (Depletes Empty)
  | n + 1 =>
    have := instDepletes n
    inferInstanceAs (Depletes (Layer P L (Tree P L n)))

end ByteFlow
