import ByteFlow.Proofs.Chain.Course
import ByteFlow.Proofs.Codec.Scalar

/-!
# Streams that let nothing through

A source that is dry gives no byte any more, and a sink that is full takes none.  Whatever asks
for a byte is refused with the end of the stream; an operation that asks for none, or is content
with none, succeeds.  All of this happens at once: nothing is changed and nothing is traced, so
no stream under this one is even asked.

## Main definitions

* `Action.Idle x s answer` — started in `s`, the operation does nothing but answer.
* `Source.Dry`, `Sink.Full` — no byte passes any more.
* `Source.Dry.of_readU8`, `Sink.Full.of_writeU8` — single bytes and bulk operations decide it.
* `Source.Finished`, `Sink.Finished` — moreover, closing has nothing left to do.
-/

namespace ByteFlow

open ByteFlow.Action

variable {σ τ α β : Type}

/-! ## Operations that only answer -/

/-- Started in `s`, the operation does nothing but answer: the state stays as it is, and nothing
is traced. -/
def Action.Idle (x : Action σ α) (s : σ) (answer : Except Fault α) : Prop :=
  x.run s = ⟨answer, s, #[]⟩

namespace Action.Idle

variable {x : Action σ α} {s : σ} {answer : Except Fault α}

protected theorem pure (a : α) (s : σ) : Idle (pure a) s (.ok a) := rfl

theorem bind_ok {f : α → Action σ β} {a : α} {answer : Except Fault β} (hx : Idle x s (.ok a))
    (hf : Idle (f a) s answer) : Idle (x >>= f) s answer := by
  rw [Idle, run_bind_of_ok hx, hf, Outcome.after_empty]

theorem bind_error {fault : Fault} (hx : Idle x s (.error fault)) (f : α → Action σ β) :
    Idle (x >>= f) s (.error fault) :=
  run_bind_of_error hx f

protected theorem map (hx : Idle x s answer) (f : α → β) : Idle (f <$> x) s (answer.map f) := by
  rw [← bind_pure_comp]
  cases answer with
  | error fault => exact hx.bind_error _
  | ok a => exact hx.bind_ok (.pure (f a) s)

theorem attempt (hx : Idle x s answer) : Idle (Action.attempt x) s (.ok answer) := by
  change (⟨.ok (x.run s).answer, (x.run s).state, (x.run s).events⟩ : Outcome σ _) = _
  rw [hx]

theorem onFirst (hx : Idle x s answer) (t : τ) : Idle (Action.onFirst x) (s, t) answer := by
  rw [Idle, run_onFirst, hx]
  rfl

theorem alongside {x : Action (σ × τ) α} {t : τ} (hx : Idle x (s, t) answer) :
    Idle (Action.alongside t x) s (answer.map fun a => (a, t)) := by
  simp only [Idle, Action.alongside] at *
  rw [hx]
  cases answer <;> rfl

end Action.Idle

/-- What is answered when so many bytes are wanted, and there is no getting any. -/
def refusal (wanted : Nat) : Except Fault Unit :=
  if wanted = 0 then .ok () else .error .endOfStream

/-- A bulk operation that moves nothing is refused if it may not come short. -/
theorem Action.Idle.completely {bulk : Action (σ × Region) Unit} {s : σ} {r : Region}
    (h : Idle bulk (s, r) (.ok ())) :
    Idle (Source.fillCompletely bulk) (s, r) (refusal r.remaining) := by
  refine h.bind_ok ?_
  by_cases hr : r.remaining = 0
  · simp [hr, refusal, Idle]
  · simp [hr, refusal, Idle]

/-! ## Sources -/

namespace Source

variable [Source σ] {s : σ}

/-- No byte comes from the source any more. -/
structure Dry (s : σ) : Prop where
  read : ∀ kind : Scalar, Idle (kind.read : Action σ kind.Val) s (.error .endOfStream)
  readBytes : ∀ r : Region,
    Idle (Source.readBytes : Action (σ × Region) Unit) (s, r) (refusal r.remaining)
  readUnits : ∀ (n : Nat) (units : Array UInt16),
    Idle (Source.readUnits n : Action (σ × Array UInt16) Unit) (s, units) (refusal n)
  fill : ∀ r : Region, Idle (Source.fill : Action (σ × Region) Unit) (s, r) (.ok ())
  readUtf16 : Idle (Source.readUtf16 : Action σ (Array UInt16)) s (.error .endOfStream)
  readString : Idle (Source.readString : Action σ String) s (.error .endOfStream)

/-- A source is dry if it refuses a byte and a fill moves none, provided that the other
operations are made from these. -/
theorem Dry.of_readU8 (hread : Idle (Source.readU8 : Action σ UInt8) s (.error .endOfStream))
    (hfill : ∀ r : Region, Idle (Source.fill : Action (σ × Region) Unit) (s, r) (.ok ()))
    (hbytes : (Source.readBytes : Action (σ × Region) Unit) = fillCompletely Source.fill)
    (hunits : ∀ n, (Source.readUnits n : Action (σ × Array UInt16) Unit) =
      Bytewise.readUnits Source.readU8 n) : Dry s := by
  have htake (n : Nat) : Idle (Bytewise.take (Source.readU8 : Action σ UInt8) (n + 1)) s
      (.error .endOfStream) := hread.bind_error _
  -- a sequence begins with its length
  have hutf16 : Idle (Source.readUtf16 : Action σ (Array UInt16)) s (.error .endOfStream) :=
    ((((htake 3).bind_error _).bind_error _).bind_error _).bind_error _
  constructor
  case read =>
    intro kind
    rw [kind.read_eq]
    cases kind <;> exact (htake _).map _
  case readBytes =>
    intro r
    rw [hbytes]
    exact (hfill r).completely
  case readUnits =>
    intro n units
    rw [hunits, Bytewise.readUnits]
    cases n with
    | zero => exact .pure () _
    | succ n =>
      rw [repeatUntil_succ]
      have hunit : Idle (Bytewise.readUnit (Source.readU8 : Action σ UInt8)) s
          (.error .endOfStream) := (hread.bind_error _).bind_error _
      exact ((hunit.onFirst units).bind_error _).bind_error _
  case fill => exact hfill
  case readUtf16 => exact hutf16
  case readString => exact hutf16.bind_error _

/-- The source is dry, and closing it has nothing left to do. -/
structure Finished (s : σ) : Prop extends Dry s where
  close : Idle (Closeable.close : Action σ Unit) s (.ok ())

theorem Finished.idle_perform (h : Finished s) (call : SourceCall) :
    ∃ answer, Idle (call.perform : Action σ Unit) s answer := by
  cases call with
  | readU8 => exact ⟨_, (h.read .u8).map _⟩
  | readBytes region => exact ⟨_, (h.readBytes region).alongside.map _⟩
  | readUnits n inHand => exact ⟨_, (h.readUnits n inHand).alongside.map _⟩
  | fill region => exact ⟨_, (h.fill region).alongside.map _⟩
  | close => exact ⟨_, h.close⟩

end Source

/-! ## Sinks -/

namespace Sink

variable [Sink σ] {s : σ}

/-- How a sequence of so many units is refused by a sink that refuses every byte.  One that is too
long to be written at all is not even offered to the sink. -/
def refusalOfSequence (fault : Fault) (n : Nat) : Fault :=
  if maxUnits < n then .misuse (.sequenceTooLong n) else fault

/-- A sequence begins with its length. -/
theorem idle_writeUtf16 {fault : Fault} {units : Array UInt16}
    (h : Idle (Sink.writeNat 4 units.size : Action σ Unit) s (.error fault)) :
    Idle (Sink.writeUtf16 units : Action σ Unit) s
      (.error (refusalOfSequence fault units.size)) := by
  rw [Sink.writeUtf16, refusalOfSequence]
  by_cases hlong : maxUnits < units.size
  · rw [if_pos hlong, if_pos hlong]
    rfl
  · rw [if_neg hlong, if_neg hlong]
    exact h.bind_error _

/-- No byte goes into the sink any more. -/
structure Full (s : σ) : Prop where
  write : ∀ (kind : Scalar) (v : kind.Val),
    Idle (kind.write v : Action σ Unit) s (.error .endOfStream)
  writeBytes : ∀ bytes : Bytes, Idle (Sink.writeBytes bytes : Action σ Unit) s (refusal bytes.size)
  writeUnits : ∀ units : Array UInt16,
    Idle (Sink.writeUnits units : Action σ Unit) s (refusal units.size)
  drain : ∀ r : Region, Idle (Sink.drain : Action (σ × Region) Unit) (s, r) (.ok ())
  writeUtf16 : ∀ units : Array UInt16,
    Idle (Sink.writeUtf16 units : Action σ Unit) s
      (.error (refusalOfSequence .endOfStream units.size))
  writeString : ∀ text : String, Idle (Sink.writeString text : Action σ Unit) s
    (.error (refusalOfSequence .endOfStream (Text.Utf16.encode text).length))

/-- A sink is full if it refuses any byte and a drain moves none, provided that the other
operations are made from these. -/
theorem Full.of_writeU8
    (hwrite : ∀ v, Idle (Sink.writeU8 v : Action σ Unit) s (.error .endOfStream))
    (hdrain : ∀ r : Region, Idle (Sink.drain : Action (σ × Region) Unit) (s, r) (.ok ()))
    (hbytes : ∀ bytes, (Sink.writeBytes bytes : Action σ Unit) = drainCompletely Sink.drain bytes)
    (hunits : ∀ units, (Sink.writeUnits units : Action σ Unit) =
      Bytewise.writeUnits Sink.writeU8 units) : Full s := by
  have hlist {bs : List UInt8} (hbs : bs ≠ []) :
      Idle (Bytewise.writeList (Sink.writeU8 : UInt8 → Action σ Unit) bs) s
        (.error .endOfStream) := by
    cases bs with
    | nil => exact absurd rfl hbs
    | cons b rest =>
      rw [Bytewise.writeList, forEach_cons]
      exact (hwrite b).bind_error _
  constructor
  case write =>
    intro kind v
    rw [kind.write_eq]
    refine hlist (List.ne_nil_of_length_pos ?_)
    rw [Scalar.length_encode]
    cases kind <;> decide
  case writeBytes =>
    intro bytes
    have hremaining : (Region.wrapReadOnly bytes).remaining = bytes.size := rfl
    have hmoved := (hdrain (Region.wrapReadOnly bytes)).completely.alongside.map fun _ => ()
    rw [hbytes, drainCompletely, bind_pure_comp]
    rw [hremaining] at hmoved
    cases hanswer : refusal bytes.size with
    | error fault => rwa [hanswer] at hmoved
    | ok _ => rwa [hanswer] at hmoved
  case writeUnits =>
    intro units
    rw [hunits, Bytewise.writeUnits, ← Array.length_toList]
    cases units.toList with
    | nil => exact .pure () s
    | cons unit rest =>
      rw [forEach_cons]
      exact (hlist (List.cons_ne_nil _ _)).bind_error _
  case drain => exact hdrain
  case writeUtf16 => exact fun units => idle_writeUtf16 (hlist (List.cons_ne_nil _ _))
  case writeString => exact fun text => idle_writeUtf16 (hlist (List.cons_ne_nil _ _))

/-- The sink is full, and flushing or closing it has nothing left to do. -/
structure Finished (s : σ) : Prop extends Full s where
  flush : Idle (Sink.flush : Action σ Unit) s (.ok ())
  close : Idle (Closeable.close : Action σ Unit) s (.ok ())

theorem Finished.idle_perform (h : Finished s) (call : SinkCall) :
    ∃ answer, Idle (call.perform : Action σ Unit) s answer := by
  cases call with
  | writeU8 v => exact ⟨_, h.write .u8 v⟩
  | writeBytes bytes => exact ⟨_, h.writeBytes bytes⟩
  | writeUnits units => exact ⟨_, h.writeUnits units⟩
  | drain region => exact ⟨_, (h.drain region).alongside.map _⟩
  | flush => exact ⟨_, h.flush⟩
  | close => exact ⟨_, h.close⟩

end Sink

/-- A stream that only answers stays as it is, whatever it is called for and however often. -/
theorem idle_answers {κ : Type} {perform : κ → Action σ Unit} {s : σ}
    (h : ∀ call, ∃ answer, Idle (perform call) s answer) (calls : List κ) :
    ∃ got, Idle (answers perform calls) s (.ok got) := by
  induction calls with
  | nil => exact ⟨_, .pure [] s⟩
  | cons call others ih =>
    obtain ⟨answer, hanswer⟩ := h call
    obtain ⟨rest, hrest⟩ := ih
    exact ⟨_, hanswer.attempt.bind_ok (hrest.bind_ok (.pure _ s))⟩

end ByteFlow
