import ByteFlow.Proofs.Closing.Again

/-!
# Operations that are let in

A data operation may fail for many reasons, and one of them is that the stream is closed.  An
operation that does not fail for this reason is let in.  A data operation of any kind is let in if
the single ones are from which it is made, since a caller's mistake and malformed bytes are other
reasons.

## Main definitions

* `Admitted answer` — the answer is not that the stream is closed.
* `Action.Admits I x` — the operation is let in wherever the property holds, and keeps it.
* `Source.Admits I`, `Sink.Admits I` — this is so for the single operations of a stream.
* `Fetched.answer`, `Submitted.answer` — what a data operation answered.
* `Submit.Fits` — data operations that a closed sink refuses as such.
* `Source.Admits.perform`, `Sink.Admits.perform` — every data operation is let in.
-/

namespace ByteFlow

open ByteFlow.Action

variable {σ ρ α β : Type}

/-! ## Answers -/

/-- The answer is not that the stream is closed. -/
def Admitted : Except Fault α → Prop
  | .ok _ => True
  | .error fault => fault ≠ .closed

theorem Admitted.ne_closed {answer : Except Fault α} (h : Admitted answer) :
    answer ≠ .error .closed := by
  rintro rfl
  exact h rfl

theorem Admitted.map {answer : Except Fault α} (h : Admitted answer) (f : α → β) :
    Admitted (answer.map f) := by
  cases answer with
  | ok a => trivial
  | error fault => exact h

/-- What a source answered, apart from the value. -/
def Fetched.answer : Fetched → Except Fault Unit
  | value answer => answer.map fun _ => ()
  | bytes answer _ => answer
  | units answer _ => answer
  | fill answer _ => answer

/-- What a sink answered. -/
def Submitted.answer : Submitted → Except Fault Unit
  | value answer => answer
  | drain answer _ => answer
  | flush answer => answer

/-- A closed source answers every data operation with that. -/
@[simp] theorem Fetch.answer_refused (op : Fetch) : op.refused.answer = .error .closed := by
  cases op <;> rfl

/-- Only a value that is too long to be written at all does not fit. -/
def Submit.Fits : Submit → Prop
  | value v => v.Fits
  | drain _ => True
  | flush => True

/-- A closed sink answers every data operation that fits with that. -/
theorem Submit.answer_refused {op : Submit} (h : op.Fits) :
    op.refused.answer = .error .closed := by
  cases op with
  | value v => exact congrArg Except.error (Value.refusal_of_fits h)
  | drain region => rfl
  | flush => rfl

/-! ## Operations -/

namespace Action

/-- The operation is let in wherever the property holds, and keeps it. -/
def Admits (I : σ → Prop) (x : Action σ α) : Prop :=
  ∀ s, I s → x.Ends s fun answer t => Admitted answer ∧ I t

namespace Admits

variable {I : σ → Prop}

protected theorem pure (a : α) : Admits I (pure a : Action σ α) := fun _ hs => ⟨trivial, hs⟩

theorem fail {fault : Fault} (h : fault ≠ .closed) : Admits I (Action.fail fault : Action σ α) :=
  fun _ hs => ⟨h, hs⟩

theorem gets (f : σ → α) : Admits I (Action.gets f) := fun _ hs => ⟨trivial, hs⟩

protected theorem bind {x : Action σ α} {f : α → Action σ β} (hx : Admits I x)
    (hf : ∀ a, Admits I (f a)) : Admits I (x >>= f) :=
  fun s hs => (hx s hs).bind (fun a t ht => hf a t ht.2) fun _ _ ht => ht

protected theorem map {x : Action σ α} (hx : Admits I x) (f : α → β) : Admits I (f <$> x) := by
  rw [← bind_pure_comp]
  exact hx.bind fun _ => .pure _

theorem repeatUntil {body : Action σ (Option α)} {otherwise : Action σ α} (hbody : Admits I body)
    (hotherwise : Admits I otherwise) (n : Nat) :
    Admits I (Action.repeatUntil n body otherwise) := by
  induction n with
  | zero =>
    rw [repeatUntil_zero]
    exact hotherwise
  | succ n ih =>
    rw [repeatUntil_succ]
    refine hbody.bind fun answer => ?_
    cases answer with
    | none => exact ih
    | some a => exact .pure a

theorem forEach {body : β → Action σ Unit} (hbody : ∀ b, Admits I (body b)) (entries : List β) :
    Admits I (Action.forEach entries body) := by
  induction entries with
  | nil => exact .pure ()
  | cons b rest ih =>
    rw [forEach_cons]
    exact (hbody b).bind fun _ => ih

theorem onFirst {x : Action σ α} (hx : Admits I x) :
    Admits (fun p : σ × ρ => I p.1) (Action.onFirst x) :=
  fun p hp => hx p.1 hp

/-- On the companion there is nothing to keep. -/
theorem onSecond {x : Action ρ α} (hx : Admits (fun _ => True) x) :
    Admits (fun p : σ × ρ => I p.1) (Action.onSecond x) :=
  fun p hp => ⟨(hx p.2 trivial).1, hp⟩

theorem alongside {x : Action (σ × ρ) α} (hx : Admits (fun p => I p.1) x) (a : ρ) :
    Admits I (Action.alongside a x) := by
  intro s hs
  rw [ends_alongside]
  exact (hx (s, a) hs).mono fun _ _ h => ⟨h.1.map _, h.2⟩

/-- What the operation answered is handed back with its companion. -/
theorem handBack {x : Action (σ × ρ) Unit} (hx : Admits (fun p => I p.1) x) {s : σ} (hs : I s)
    (a : ρ) {f : Except Fault Unit → ρ → α} {Good : α → Prop}
    (hf : ∀ answer b, Admitted answer → Good (f answer b)) :
    (do let (answer, b) ← Action.alongside a (attempt x); pure (f answer b) : Action σ α).Ends s
      fun answer t => (∃ got, answer = .ok got ∧ Good got) ∧ I t := by
  rw [ends_bind, ends_alongside, ends_attempt]
  refine (hx (s, a) hs).mono ?_
  rintro answer p ⟨hanswer, hp⟩
  exact ⟨⟨f answer p.2, rfl, hf answer p.2 hanswer⟩, hp⟩

theorem take {next : Action σ UInt8} (hnext : Admits I next) (n : Nat) :
    Admits I (Bytewise.take next n) := by
  induction n with
  | zero => exact .pure []
  | succ n ih => exact hnext.bind fun _ => ih.bind fun _ => .pure _

theorem readUnits {next : Action σ UInt8} (hnext : Admits I next) (n : Nat) :
    Admits (fun p : σ × Array UInt16 => I p.1) (Bytewise.readUnits next n) := by
  have hunit : Admits I (Bytewise.readUnit next) := (hnext.take 2).bind fun _ => .pure _
  have hpush (unit : UInt16) : Admits (fun _ => True)
      (Action.modify fun units : Array UInt16 => units.push unit) :=
    fun _ _ => ⟨trivial, trivial⟩
  exact .repeatUntil (hunit.onFirst.bind fun unit => (hpush unit).onSecond.bind fun _ => .pure none)
    (.pure ()) n

theorem writeUnits {put : UInt8 → Action σ Unit} (hput : ∀ v, Admits I (put v))
    (units : Array UInt16) : Admits I (Bytewise.writeUnits put units) :=
  .forEach (fun _ => .forEach hput _) _

theorem fillCompletely {fill : Action (σ × Region) Unit} (hfill : Admits (fun p => I p.1) fill) :
    Admits (fun p => I p.1) (Source.fillCompletely fill) := by
  refine hfill.bind fun _ => (Admits.gets _).bind fun more => ?_
  cases more with
  | false => exact .pure ()
  | true => exact .fail (by simp)

theorem drainCompletely {drain : Action (σ × Region) Unit} (hdrain : Admits (fun p => I p.1) drain)
    (bytes : Bytes) : Admits I (Sink.drainCompletely drain bytes) :=
  (hdrain.fillCompletely.alongside _).bind fun _ => .pure ()

end Admits

end Action

/-! ## Streams -/

namespace Source

variable [Source σ] {I : σ → Prop}

/-- The single operations of the source are let in. -/
structure Admits [Source σ] (I : σ → Prop) : Prop where
  readU8 : Action.Admits I (Source.readU8 : Action σ UInt8)
  readBytes : Action.Admits (fun p => I p.1) (Source.readBytes : Action (σ × Region) Unit)
  readUnits : ∀ n,
    Action.Admits (fun p => I p.1) (Source.readUnits n : Action (σ × Array UInt16) Unit)
  fill : Action.Admits (fun p => I p.1) (Source.fill : Action (σ × Region) Unit)

namespace Admits

/-- It is enough to look at single bytes and fills if the other operations are made from these. -/
theorem of_readU8 (hread : Action.Admits I (Source.readU8 : Action σ UInt8))
    (hfill : Action.Admits (fun p => I p.1) (Source.fill : Action (σ × Region) Unit))
    (hbytes : (Source.readBytes : Action (σ × Region) Unit) = fillCompletely Source.fill)
    (hunits : ∀ n, (Source.readUnits n : Action (σ × Array UInt16) Unit) =
      Bytewise.readUnits Source.readU8 n) : Admits I where
  readU8 := hread
  readBytes := by
    rw [hbytes]
    exact hfill.fillCompletely
  readUnits n := by
    rw [hunits]
    exact hread.readUnits n
  fill := hfill

variable (h : Admits I)
include h

theorem scalar (k : Scalar) : Action.Admits I (k.read : Action σ k.Val) := by
  rw [k.read_eq]
  exact (h.readU8.take k.width).map k.decode

theorem readUtf16 : Action.Admits I (Source.readUtf16 : Action σ (Array UInt16)) := by
  have hstep (total : Nat) : Action.Admits (fun p : σ × Array UInt16 => I p.1)
      (readUnitsInSteps total) := by
    refine .repeatUntil ((Action.Admits.gets _).bind fun inHand => ?_) (.pure ()) _
    by_cases hmore : inHand < total
    · rw [if_pos hmore]
      exact (h.readUnits _).bind fun _ => .pure none
    · rw [if_neg hmore]
      exact .pure (some ())
  have hlength : Action.Admits I (Source.readI32 : Action σ Int32) := h.scalar .i32
  refine hlength.bind fun length => ?_
  by_cases hnegative : length < 0
  · rw [if_pos hnegative]
    exact .fail (by simp)
  · rw [if_neg hnegative]
    exact ((hstep _).alongside _).bind fun _ => .pure _

theorem read (kind : Kind) : Action.Admits I (kind.read : Action σ Value) := by
  cases kind with
  | scalar k => exact (h.scalar k).bind fun _ => .pure _
  | bytes n => exact (h.readBytes.alongside _).bind fun _ => .pure _
  | units n => exact ((h.readUnits n).alongside _).bind fun _ => .pure _
  | sequence => exact h.readUtf16.bind fun _ => .pure _
  | text =>
    have hstring : Action.Admits I (Source.readString : Action σ String) := by
      refine h.readUtf16.bind fun units => ?_
      cases Text.Utf16.decode units.toList with
      | none => exact .fail (by simp)
      | some text => exact .pure text
    exact hstring.bind fun _ => .pure _

/-- If the single operations are let in, every data operation is. -/
theorem perform (op : Fetch) {s : σ} (hs : I s) :
    (op.perform : Action σ Fetched).Ends s fun answer t =>
      (∃ got, answer = .ok got ∧ Admitted got.answer) ∧ I t := by
  cases op with
  | value kind =>
    rw [Fetch.perform, ends_attempt_bind]
    refine (h.read kind s hs).mono ?_
    rintro answer t ⟨hanswer, ht⟩
    exact ⟨⟨.value answer, rfl, hanswer.map _⟩, ht⟩
  | bytes region => exact h.readBytes.handBack hs region fun _ _ hanswer => hanswer
  | units n inHand => exact (h.readUnits n).handBack hs inHand fun _ _ hanswer => hanswer
  | fill region => exact h.fill.handBack hs region fun _ _ hanswer => hanswer

end Admits

end Source

namespace Sink

variable [Sink σ] {I : σ → Prop}

/-- The single operations of the sink are let in. -/
structure Admits [Sink σ] (I : σ → Prop) : Prop where
  writeU8 : ∀ v, Action.Admits I (Sink.writeU8 v : Action σ Unit)
  flush : Action.Admits I (Sink.flush : Action σ Unit)
  writeBytes : ∀ bytes, Action.Admits I (Sink.writeBytes bytes : Action σ Unit)
  writeUnits : ∀ units, Action.Admits I (Sink.writeUnits units : Action σ Unit)
  drain : Action.Admits (fun p => I p.1) (Sink.drain : Action (σ × Region) Unit)

namespace Admits

/-- It is enough to look at single bytes and drains if the other operations are made from
these. -/
theorem of_writeU8 (hwrite : ∀ v, Action.Admits I (Sink.writeU8 v : Action σ Unit))
    (hflush : Action.Admits I (Sink.flush : Action σ Unit))
    (hdrain : Action.Admits (fun p => I p.1) (Sink.drain : Action (σ × Region) Unit))
    (hbytes : ∀ bytes, (Sink.writeBytes bytes : Action σ Unit) = drainCompletely Sink.drain bytes)
    (hunits : ∀ units, (Sink.writeUnits units : Action σ Unit) =
      Bytewise.writeUnits Sink.writeU8 units) : Admits I where
  writeU8 := hwrite
  flush := hflush
  writeBytes bytes := by
    rw [hbytes]
    exact hdrain.drainCompletely bytes
  writeUnits units := by
    rw [hunits]
    exact .writeUnits hwrite units
  drain := hdrain

variable (h : Admits I)
include h

theorem writeUtf16 (us : Array UInt16) :
    Action.Admits I (Sink.writeUtf16 us : Action σ Unit) := by
  rw [Sink.writeUtf16]
  by_cases hlong : Sink.maxUnits < us.size
  · rw [if_pos hlong]
    exact .fail (by simp)
  · rw [if_neg hlong]
    exact (Action.Admits.forEach h.writeU8 _).bind fun _ => h.writeUnits us

theorem write (v : Value) : Action.Admits I (v.write : Action σ Unit) := by
  cases v with
  | scalar k v =>
    rw [Value.write, k.write_eq]
    exact .forEach h.writeU8 _
  | bytes data => exact h.writeBytes data
  | units us => exact h.writeUnits us
  | sequence us => exact h.writeUtf16 us
  | text s => exact h.writeUtf16 _

/-- If the single operations are let in, every data operation is. -/
theorem perform (op : Submit) {s : σ} (hs : I s) :
    (op.perform : Action σ Submitted).Ends s fun answer t =>
      (∃ got, answer = .ok got ∧ Admitted got.answer) ∧ I t := by
  cases op with
  | value v =>
    rw [Submit.perform, ends_attempt_bind]
    refine (h.write v s hs).mono ?_
    rintro answer t ⟨hanswer, ht⟩
    exact ⟨⟨.value answer, rfl, hanswer⟩, ht⟩
  | drain region => exact h.drain.handBack hs region fun _ _ hanswer => hanswer
  | flush =>
    rw [Submit.perform, ends_attempt_bind]
    refine (h.flush s hs).mono ?_
    rintro answer t ⟨hanswer, ht⟩
    exact ⟨⟨.flush answer, rfl, hanswer⟩, ht⟩

end Admits

end Sink

/-- Where there is no stream, every operation is let in. -/
theorem Source.admits_empty (I : Empty → Prop) : Source.Admits I :=
  ⟨fun s => s.elim, fun p => p.1.elim, fun _ p => p.1.elim, fun p => p.1.elim⟩

theorem Sink.admits_empty (I : Empty → Prop) : Sink.Admits I :=
  ⟨fun _ s => s.elim, fun s => s.elim, fun _ s => s.elim, fun _ s => s.elim, fun p => p.1.elim⟩

end ByteFlow
