import ByteFlow.Proofs.Capacity

/-!
# Writes that come short

A bulk write for which there is not enough room fails, but not before the room is used up:
it takes the bytes in front, as many as there are places, and reports the end of the stream.
What becomes of the bytes is then settled by the capacity of the sink alone.

## Main definitions

* `fitting room bs` — the bytes in front for which there is room.
* `Pushes x bs` — the operation takes the bytes as far as there is room for them.
* `Pushes.ends` — what it answers and what it takes, by the capacity of the sink.
* `ThoroughSink` — sinks whose bulk writes are of this kind.
-/

namespace ByteFlow

open ByteFlow.Action

variable {P L σ τ : Type}

/-! ## As many bytes as there is room for -/

/-- The bytes in front for which there is room. -/
noncomputable def fitting (room : ℕ∞) (bs : List UInt8) : List UInt8 :=
  bs.take (min (bs.length : ℕ∞) room).toNat

@[simp] theorem fitting_top (bs : List UInt8) : fitting ⊤ bs = bs := by
  simp [fitting]

@[simp] theorem fitting_coe (n : Nat) (bs : List UInt8) : fitting n bs = bs.take n := by
  rcases le_total bs.length n with h | h
  · rw [fitting, min_eq_left (by exact_mod_cast h), ENat.toNat_natCast, List.take_length,
      List.take_of_length_le h]
  · rw [fitting, min_eq_right (by exact_mod_cast h), ENat.toNat_natCast]

theorem fitting_of_le {room : ℕ∞} {bs : List UInt8} (h : bs.length ≤ room) :
    fitting room bs = bs := by
  rw [fitting, min_eq_left h, ENat.toNat_natCast, List.take_length]

/-- The bytes behind the first ones get the places that these have left. -/
theorem fitting_append (room : ℕ∞) (bs cs : List UInt8) :
    fitting room (bs ++ cs) = fitting room bs ++ fitting (room - bs.length) cs := by
  cases room using ENat.recTopCoe with
  | top => simp
  | coe n => rw [← ENat.natCast_sub, fitting_coe, fitting_coe, fitting_coe, List.take_append]

/-! ## Operations that may come short -/

section Kinds

variable [Openness σ] [Meter σ] [Capacity σ]

/-- The bytes are taken, or else those in front until there is no place left. -/
def Pushes (x : Action σ Unit) (bs : List UInt8) : Prop :=
  ∀ s, IsOpen s → x.Ends s fun answer t =>
    answer = .ok () ∧ Takes s bs t ∨
      answer = .error .endOfStream ∧
        ∃ front rest, bs = front ++ rest ∧ rest ≠ [] ∧ Takes s front t ∧ capacity t = 0

/-- What fits has left no more room than there was for it. -/
theorem Takes.capacity_eq {s t : σ} {bs : List UInt8} (h : Takes s (fitting (capacity s) bs) t) :
    capacity t = capacity s - bs.length := by
  have hcapacity := h.2.2
  cases hroom : capacity s using ENat.recTopCoe with
  | top =>
    rw [hroom] at hcapacity
    cases hleft : capacity t using ENat.recTopCoe with
    | top => rfl
    | coe m =>
      rw [hleft, ← Nat.cast_add] at hcapacity
      exact absurd hcapacity (ENat.top_ne_natCast _)
  | coe n =>
    rw [hroom, fitting_coe, List.length_take] at hcapacity
    cases hleft : capacity t using ENat.recTopCoe with
    | top =>
      rw [hleft, add_top] at hcapacity
      exact absurd hcapacity (ENat.natCast_ne_top _)
    | coe m =>
      rw [hleft] at hcapacity
      have hcount : n = min n bs.length + m := by exact_mod_cast hcapacity
      rw [← ENat.natCast_sub]
      exact congrArg _ (by omega)

namespace Pushes

variable {x : Action σ Unit} {bs cs : List UInt8}

/-- The operation succeeds if there is room for all of the bytes, and it takes those for which
there is. -/
protected theorem ends (h : Pushes x bs) {s : σ} (hs : IsOpen s) :
    x.Ends s fun answer t =>
      answer = (if (bs.length : ℕ∞) ≤ capacity s then .ok () else .error .endOfStream) ∧
        Takes s (fitting (capacity s) bs) t := by
  refine (h s hs).mono ?_
  rintro answer t (⟨rfl, ht⟩ | ⟨rfl, front, rest, rfl, hrest, ht, hzero⟩)
  · have hroom : (bs.length : ℕ∞) ≤ capacity s := by
      rw [ht.2.2]
      exact le_self_add
    rw [if_pos hroom, fitting_of_le hroom]
    exact ⟨rfl, ht⟩
  · have hroom : capacity s = front.length := by
      rw [ht.2.2, hzero, add_zero]
    have hshort : ¬((front ++ rest).length : ℕ∞) ≤ capacity s := by
      have hpos := List.length_pos_iff.2 hrest
      rw [hroom, List.length_append, Nat.cast_le]
      omega
    rw [if_neg hshort, hroom, fitting_coe, List.take_left]
    exact ⟨rfl, ht⟩

protected theorem pure : Pushes (pure () : Action σ Unit) [] :=
  fun _ hs => .inl ⟨rfl, .refl hs⟩

/-- Two writes in a row are one of the bytes of both. -/
protected theorem bind {y : Unit → Action σ Unit} (hx : Pushes x bs) (hy : Pushes (y ()) cs) :
    Pushes (x >>= y) (bs ++ cs) := by
  intro s hs
  rw [ends_bind]
  refine (hx s hs).mono ?_
  rintro answer t (⟨rfl, ht⟩ | ⟨rfl, front, rest, rfl, hrest, ht, hzero⟩)
  · refine (hy t ht.1).mono ?_
    rintro answer u (⟨rfl, hu⟩ | ⟨rfl, front, rest, rfl, hrest, hu, hzero⟩)
    · exact .inl ⟨rfl, ht.trans hu⟩
    · exact .inr ⟨rfl, bs ++ front, rest, by simp, hrest, ht.trans hu, hzero⟩
  · exact .inr ⟨rfl, front, rest ++ cs, by simp, by simp [hrest], ht, hzero⟩

/-- A list of writes is one write of all their bytes. -/
theorem forEach {β : Type} {body : β → Action σ Unit} {bytes : β → List UInt8} {entries : List β}
    (h : ∀ b ∈ entries, Pushes (body b) (bytes b)) :
    Pushes (Action.forEach entries body) (entries.flatMap bytes) := by
  induction entries with
  | nil => exact Pushes.pure
  | cons b rest ih =>
    rw [forEach_cons, List.flatMap_cons]
    exact (h b List.mem_cons_self).bind (ih fun c hc => h c (List.mem_cons_of_mem b hc))

end Pushes

namespace Puts

variable {put : UInt8 → Action σ Unit}

theorem pushes (h : Puts put) (b : UInt8) : Pushes (put b) [b] := by
  intro s hs
  refine (h b s hs).mono ?_
  rintro answer t (⟨rfl, ht⟩ | ⟨rfl, ht, hzero⟩)
  · exact .inl ⟨rfl, ht⟩
  · exact .inr ⟨rfl, [], [b], rfl, by simp, ht, hzero⟩

theorem pushes_writeList (h : Puts put) (bs : List UInt8) :
    Pushes (Bytewise.writeList put bs) bs := by
  have hall : Pushes (Action.forEach bs put) (bs.flatMap fun b => [b]) :=
    Pushes.forEach fun b _ => h.pushes b
  rwa [List.flatMap_singleton'] at hall

theorem pushes_writeUnits (h : Puts put) (units : Array UInt16) :
    Pushes (Bytewise.writeUnits put units) (unitBytes units.toList) :=
  Pushes.forEach fun _ _ => h.pushes_writeList _

end Puts

/-- A bulk write that is a drain takes as many of its bytes as the drain. -/
theorem Empties.pushes_drainCompletely {drain : Action (σ × Region) Unit} (h : Empties drain)
    (bytes : Bytes) : Pushes (Sink.drainCompletely drain bytes) bytes.list := by
  intro s hs
  rw [Sink.ends_drainCompletely]
  refine (h s _ hs (Region.wellFormed_wrapReadOnly bytes)).of_answer ?_
  rintro ⟨t, q⟩ ⟨n, hn, ht, rfl, hend⟩
  have hremaining : (Region.wrapReadOnly bytes).remaining = bytes.list.length := rfl
  rw [Region.list_window_wrapReadOnly] at ht
  rw [hremaining] at hn hend
  simp only [Except.bind, Region.remaining_skip, hremaining]
  by_cases hall : n = bytes.list.length
  · subst hall
    rw [List.take_length] at ht
    simp [ht]
  · have hzero := hend.resolve_left hall
    have hleft : bytes.list.length - n ≠ 0 := by omega
    rw [if_neg hleft]
    refine .inr ⟨rfl, _, bytes.list.drop n, (List.take_append_drop n _).symm, ?_, ht, hzero⟩
    rwa [← List.length_pos_iff, List.length_drop, Nat.pos_iff_ne_zero]

end Kinds

/-- A sink whose bulk writes use up the room before they fail. -/
class ThoroughSink (σ : Type) [Sink σ] [Openness σ] [Meter σ] [Capacity σ] : Prop
    extends LawfulSink σ where
  pushes_writeBytes : ∀ bytes : Bytes, Pushes (Sink.writeBytes bytes : Action σ Unit) bytes.list
  pushes_writeUnits : ∀ units : Array UInt16,
    Pushes (Sink.writeUnits units : Action σ Unit) (unitBytes units.toList)

/-! ## Memory -/

instance : ThoroughSink Empty where
  pushes_writeBytes _ s := s.elim
  pushes_writeUnits _ s := s.elim

theorem MemorySink.thoroughSink [Meter MemorySink] (hreceive : ∀ {s : MemorySink}
    {bs : List UInt8}, bs.length ≤ s.available → Moved s bs (s.receive bs)) :
    ThoroughSink MemorySink where
  toLawfulSink := lawfulSink hreceive
  pushes_writeBytes := (empties_copyFrom hreceive).pushes_drainCompletely
  pushes_writeUnits := (puts_put hreceive).pushes_writeUnits

instance : ThoroughSink MemorySink := MemorySink.thoroughSink MemorySink.moved_receive

instance : ThoroughSink GrowingSink where
  pushes_writeBytes bytes s hs := .inl (GrowingSink.writes_append bytes s hs le_top)
  pushes_writeUnits := GrowingSink.puts_push.pushes_writeUnits

/-! ## Layers -/

section Layers

variable [Openness σ] [Meter σ] [Capacity σ] [Sink σ] [ThoroughSink σ]

instance : ThoroughSink (Quota σ) where
  pushes_writeBytes := (Quota.empties_clipped LawfulSink.drain).pushes_drainCompletely
  pushes_writeUnits := (Quota.puts_counted LawfulSink.writeU8).pushes_writeUnits

instance : ThoroughSink (Traced σ) where
  pushes_writeBytes bytes t := ThoroughSink.pushes_writeBytes bytes t.inner
  pushes_writeUnits units t := ThoroughSink.pushes_writeUnits units t.inner

instance : ThoroughSink (Relay σ) where
  pushes_writeBytes bytes t := ThoroughSink.pushes_writeBytes bytes t.inner
  pushes_writeUnits units t := ThoroughSink.pushes_writeUnits units t.inner

variable [ClosePolicy P σ] [Harmless P σ]

omit [Sink σ] [ThoroughSink σ] [ClosePolicy P σ] [Harmless P σ] in
theorem Closing.pushes_whenOpen {x : Action σ Unit} {bs : List UInt8} (hx : Pushes x bs) :
    Pushes (whenOpen x : Action (Closing P σ) Unit) bs := by
  intro c hc
  rw [ends_whenOpen hc.1]
  refine (hx c.inner hc.2).mono ?_
  rintro answer t (⟨rfl, ht⟩ | ⟨rfl, front, rest, hbs, hrest, ht, hzero⟩)
  · exact .inl ⟨rfl, takes_of_inner hc.1 ht⟩
  · exact .inr ⟨rfl, front, rest, hbs, hrest, takes_of_inner hc.1 ht, hzero⟩

instance : ThoroughSink (Closing P σ) where
  pushes_writeBytes bytes := Closing.pushes_whenOpen (ThoroughSink.pushes_writeBytes bytes)
  pushes_writeUnits units := Closing.pushes_whenOpen (ThoroughSink.pushes_writeUnits units)

variable [QuietPolicy P σ] [MeteredSink σ]

instance : ThoroughSink (Chain P σ) where
  pushes_writeBytes := (Chain.empties_spread LawfulSink.flush MeteredSink.flush
    LawfulSink.drain).pushes_drainCompletely
  pushes_writeUnits := (Chain.puts_pull LawfulSink.flush MeteredSink.flush
    LawfulSink.writeU8).pushes_writeUnits

open ThoroughSink in
instance [Sink L] [Openness L] [Meter L] [Capacity L] [ThoroughSink L] :
    ThoroughSink (Layer P L σ) where
  pushes_writeBytes bytes := by
    intro s
    cases s with
    | endpoint s => exact pushes_writeBytes bytes s
    | quota s => exact pushes_writeBytes bytes s
    | closing s => exact pushes_writeBytes bytes s
    | chain s => exact pushes_writeBytes bytes s
    | traced s => exact pushes_writeBytes bytes s
    | relay s => exact pushes_writeBytes bytes s
  pushes_writeUnits units := by
    intro s
    cases s with
    | endpoint s => exact pushes_writeUnits units s
    | quota s => exact pushes_writeUnits units s
    | closing s => exact pushes_writeUnits units s
    | chain s => exact pushes_writeUnits units s
    | traced s => exact pushes_writeUnits units s
    | relay s => exact pushes_writeUnits units s

end Layers

open ThoroughSink in
instance [Sink σ] [Openness σ] [Meter σ] [Capacity σ] [ThoroughSink σ] [Sink τ] [Openness τ]
    [Meter τ] [Capacity τ] [ThoroughSink τ] : ThoroughSink (σ ⊕ τ) where
  pushes_writeBytes bytes := by
    intro s
    cases s with
    | inl s => exact pushes_writeBytes bytes s
    | inr s => exact pushes_writeBytes bytes s
  pushes_writeUnits units := by
    intro s
    cases s with
    | inl s => exact pushes_writeUnits units s
    | inr s => exact pushes_writeUnits units s

instance Tree.instThoroughSink [Sink L] [Openness L] [Meter L] [Capacity L] [ThoroughSink L]
    [MeteredSink L] : (n : Nat) → ThoroughSink (Tree StandardPolicy L n)
  | 0 => inferInstanceAs (ThoroughSink Empty)
  | n + 1 =>
    have := instThoroughSink n
    inferInstanceAs (ThoroughSink (Layer StandardPolicy L (Tree StandardPolicy L n)))

end ByteFlow
