import ByteFlow.Proofs.Meter.Faithful

/-!
# Streams with a recorder

Devices and streams from outside need not remember what they gave.  What is said about
all of them holds with a recorder at their side too, and then there is one list of bytes
between two states: the one that was recorded.

## Main definitions

* `Recorded σ` — a stream, and the bytes that it gave.
* `Recorded.trail_device`, `Recorded.trail_source` — a trail is what was recorded.
-/

namespace ByteFlow

/-- A stream, and the bytes that it gave. -/
structure Recorded (σ : Type) where
  inner : σ
  record : List UInt8 := []

namespace Recorded

variable {σ D S : Type}

/-- The record is longer by these bytes. -/
def Adds (s : Recorded σ) (bs : List UInt8) (t : Recorded σ) : Prop :=
  t.record = s.record ++ bs

theorem Adds.unique {s t : Recorded σ} {bs cs : List UInt8} (h : Adds s bs t)
    (h' : Adds s cs t) : bs = cs :=
  List.append_cancel_left (h.symm.trans h')

theorem Adds.trans {s t u : Recorded σ} {bs cs : List UInt8} (h : Adds s bs t)
    (h' : Adds t cs u) : Adds s (bs ++ cs) u := by
  rw [Adds, h', h, List.append_assoc]

instance [Supply σ] : Supply (Recorded σ) where
  supply s := Supply.supply s.inner

/-! ## Devices -/

/-- Write down what one call gave. -/
def note (d : Recorded D) : Except IoError Bytes × D → Except IoError Bytes × Recorded D
  | (.ok given, inner) => (.ok given, ⟨inner, d.record ++ given.list⟩)
  | (.error e, inner) => (.error e, ⟨inner, d.record⟩)

theorem note_ok {d d' : Recorded D} {p : Except IoError Bytes × D} {given : Bytes}
    (h : d.note p = (.ok given, d')) : p = (.ok given, d'.inner) ∧ Adds d given.list d' := by
  rcases p with ⟨e | bytes, inner⟩
  · simp [note] at h
  · simp only [note, Prod.mk.injEq, Except.ok.injEq] at h
    obtain ⟨rfl, rfl⟩ := h
    exact ⟨rfl, rfl⟩

theorem note_error {d d' : Recorded D} {p : Except IoError Bytes × D} {e : IoError}
    (h : d.note p = (.error e, d')) : p = (.error e, d'.inner) ∧ Adds d [] d' := by
  rcases p with ⟨f | bytes, inner⟩
  · simp only [note, Prod.mk.injEq, Except.error.injEq] at h
    obtain ⟨rfl, rfl⟩ := h
    exact ⟨rfl, (List.append_nil _).symm⟩
  · simp [note] at h

@[simp] theorem inner_note (d : Recorded D) (p : Except IoError Bytes × D) :
    (d.note p).2.inner = p.2 := by
  rcases p with ⟨_ | _, inner⟩ <;> rfl

instance [InputDevice D] : InputDevice (Recorded D) where
  read room d := d.note (InputDevice.read room d.inner)
  patience d := InputDevice.patience d.inner
  read_size_le h := InputDevice.read_size_le (note_ok h).1
  patience_read_le room d := by
    rw [inner_note]
    exact InputDevice.patience_read_le room d.inner
  patience_interrupted h := InputDevice.patience_interrupted (note_error h).1

theorem trail_device [InputDevice D] {d d' : Recorded D} {bs : List UInt8}
    (h : InputDevice.Trail d bs d') : Adds d bs d' := by
  induction h with
  | refl d => exact (List.append_nil _).symm
  | read hread _ ih => exact (note_ok hread).2.trans ih
  | fault hread _ ih => exact (note_error hread).2.trans ih

/-! ## Streams from outside -/

/-- Write down what a read gave. -/
def listen (next : Action S UInt8) : Action (Recorded S) UInt8 := .of fun s =>
  (next.run s.inner).mapState fun inner =>
    match (next.run s.inner).answer with
    | .ok b => ⟨inner, s.record ++ [b]⟩
    | .error _ => ⟨inner, s.record⟩

/-- An operation that gives nothing. -/
def pass (x : Action S Unit) : Action (Recorded S) Unit := .of fun s =>
  (x.run s.inner).mapState fun inner => ⟨inner, s.record⟩

theorem adds_listen {next : Action S UInt8} {s : Recorded S} {b : UInt8}
    (h : ((listen next).run s).answer = .ok b) : Adds s [b] ((listen next).run s).state := by
  simp only [listen, Outcome.mapState] at *
  rw [h]
  rfl

theorem adds_listen_of_error {next : Action S UInt8} {s : Recorded S} {fault : Fault}
    (h : ((listen next).run s).answer = .error fault) :
    Adds s [] ((listen next).run s).state := by
  simp only [listen, Outcome.mapState] at *
  rw [h]
  exact (List.append_nil _).symm

/-- The derived operations read through the recorder. -/
instance [Source S] : Source (Recorded S) where
  close := pass Closeable.close
  readU8 := listen Source.readU8
  preference s := Source.preference s.inner
  bound s := Source.bound s.inner

instance [Source S] : PlainSource (Recorded S) := ⟨rfl⟩

theorem trail_source [Source S] {s t : Recorded S} {bs : List UInt8} (h : Source.Trail s bs t) :
    Adds s bs t := by
  induction h with
  | refl s => exact (List.append_nil _).symm
  | read hread _ ih => exact (adds_listen hread).trans ih
  | fault hread _ ih => exact (adds_listen_of_error hread).trans ih
  | close _ ih => exact ih

end Recorded

/-! ## Trees with recorders -/

variable {D S : Type}

instance [InputDevice D] : Faithful (DeviceSource (Recorded D)) where
  unique h h' := (Recorded.trail_device h).unique (Recorded.trail_device h')

instance [InputDevice D] [Source S] : Faithful (SourceEnd (Recorded D) (Recorded S)) where
  unique {s t bs cs} h := by
    refine SourceEnd.moved_cases (motive := fun s t => Moved s cs t → bs = cs) h ?_ ?_ ?_
    · intro s t hs hs'
      exact Faithful.unique (s := s) hs hs'
    · intro s t hs hs'
      exact Faithful.unique (s := s) hs hs'
    · intro s t hs hs'
      exact (Recorded.trail_source hs).unique (Recorded.trail_source hs')

end ByteFlow
