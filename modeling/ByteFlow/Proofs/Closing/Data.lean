import ByteFlow.Proofs.Chain.Verdict
import ByteFlow.Proofs.Codec.RoundTrip
import ByteFlow.Proofs.Refusal

/-!
# Data operations with all that they hand back

A data operation hands back its answer, and what has become of the region or of the code units in
hand.  Most of them are made of a few single operations, so it is enough to look at these: if two
streams do the same at single operations they do the same at all of them, and a stream that refuses
the single operations as closed refuses them all.

## Main definitions

* `Fetch`, `Submit` — the data operations of a source and of a sink.
* `Source.Twins`, `Sink.Twins` — streams that cannot be told apart by single operations.
* `Source.Shut`, `Sink.Shut` — streams that refuse the single operations as closed.
* `Source.Twins.perform`, `Source.Shut.perform` — the same for every data operation.
-/

namespace ByteFlow

open ByteFlow.Action

variable {σ τ ρ α β : Type}

/-! ## Data operations -/

/-- A data operation of a source. -/
inductive Fetch where
  /-- One value of any kind. -/
  | value (kind : Kind)
  | bytes (region : Region)
  | units (n : Nat) (inHand : Array UInt16)
  | fill (region : Region)

/-- What a source hands back. -/
inductive Fetched where
  | value (answer : Except Fault Value)
  | bytes (answer : Except Fault Unit) (region : Region)
  | units (answer : Except Fault Unit) (inHand : Array UInt16)
  | fill (answer : Except Fault Unit) (region : Region)

/-- A data operation of a sink. -/
inductive Submit where
  /-- One value of any kind; the bulk writes are among them. -/
  | value (v : Value)
  | drain (region : Region)
  | flush

/-- What a sink hands back. -/
inductive Submitted where
  | value (answer : Except Fault Unit)
  | drain (answer : Except Fault Unit) (region : Region)
  | flush (answer : Except Fault Unit)

/-- Perform the operation on a source. -/
def Fetch.perform [Source σ] : Fetch → Action σ Fetched
  | value kind => do
    let answer ← attempt kind.read
    pure (.value answer)
  | bytes region => do
    let (answer, region) ← alongside region (attempt Source.readBytes)
    pure (.bytes answer region)
  | units n inHand => do
    let (answer, inHand) ← alongside inHand (attempt (Source.readUnits n))
    pure (.units answer inHand)
  | fill region => do
    let (answer, region) ← alongside region (attempt Source.fill)
    pure (.fill answer region)

/-- Perform the operation on a sink. -/
def Submit.perform [Sink σ] : Submit → Action σ Submitted
  | value v => do
    let answer ← attempt v.write
    pure (.value answer)
  | drain region => do
    let (answer, region) ← alongside region (attempt Sink.drain)
    pure (.drain answer region)
  | flush => do
    let answer ← attempt Sink.flush
    pure (.flush answer)

/-- What a closed source hands back: everything as it was. -/
def Fetch.refused : Fetch → Fetched
  | value _ => .value (.error .closed)
  | bytes region => .bytes (.error .closed) region
  | units _ inHand => .units (.error .closed) inHand
  | fill region => .fill (.error .closed) region

/-- How a value is refused by a closed sink. -/
def Value.refusal : Value → Fault
  | sequence us => Sink.refusalOfSequence .closed us.size
  | text s => Sink.refusalOfSequence .closed (Text.Utf16.encode s).length
  | _ => .closed

/-- What a closed sink hands back: everything as it was. -/
def Submit.refused : Submit → Submitted
  | value v => .value (.error v.refusal)
  | drain region => .drain (.error .closed) region
  | flush => .flush (.error .closed)

theorem Value.refusal_of_fits {v : Value} (h : v.Fits) : v.refusal = .closed := by
  cases v with
  | sequence us => exact if_neg (Nat.not_lt.2 h)
  | text s => exact if_neg (Nat.not_lt.2 h)
  | scalar _ _ | bytes _ | units _ => rfl

/-! ## Streams that cannot be told apart -/

/-- In related states the single operations of two sources do the same. -/
structure Source.Twins [Source σ] [Source τ] (R : σ → τ → Prop) : Prop where
  readU8 : Alike R (Source.readU8 : Action σ UInt8) (Source.readU8 : Action τ UInt8)
  readBytes : Alike (Beside R) (Source.readBytes : Action (σ × Region) Unit)
    (Source.readBytes : Action (τ × Region) Unit)
  readUnits : ∀ n, Alike (Beside R) (Source.readUnits n : Action (σ × Array UInt16) Unit)
    (Source.readUnits n : Action (τ × Array UInt16) Unit)
  fill : Alike (Beside R) (Source.fill : Action (σ × Region) Unit)
    (Source.fill : Action (τ × Region) Unit)

/-- In related states the single operations of two sinks do the same. -/
structure Sink.Twins [Sink σ] [Sink τ] (R : σ → τ → Prop) : Prop where
  writeU8 : ∀ v, Alike R (Sink.writeU8 v : Action σ Unit) (Sink.writeU8 v : Action τ Unit)
  flush : Alike R (Sink.flush : Action σ Unit) (Sink.flush : Action τ Unit)
  writeBytes : ∀ bytes,
    Alike R (Sink.writeBytes bytes : Action σ Unit) (Sink.writeBytes bytes : Action τ Unit)
  writeUnits : ∀ units,
    Alike R (Sink.writeUnits units : Action σ Unit) (Sink.writeUnits units : Action τ Unit)
  drain : Alike (Beside R) (Sink.drain : Action (σ × Region) Unit)
    (Sink.drain : Action (τ × Region) Unit)

namespace Action.Alike

variable {R : σ → τ → Prop}

protected theorem map {x : Action σ α} {y : Action τ α} (h : Alike R x y) (f : α → β) :
    Alike R (f <$> x) (f <$> y) := by
  rw [← bind_pure_comp, ← bind_pure_comp]
  exact h.bind fun _ => .pure _

/-- An operation with a companion, whose answer and companion make up the answer. -/
theorem handBack {x : Action (σ × ρ) Unit} {y : Action (τ × ρ) Unit} (h : Alike (Beside R) x y)
    (a : ρ) (f : Except Fault Unit → ρ → α) :
    Alike R (do let (answer, b) ← Action.alongside a (Action.attempt x); pure (f answer b))
      (do let (answer, b) ← Action.alongside a (Action.attempt y); pure (f answer b)) :=
  (h.attempt.alongside a).bind fun _ => .pure _

end Action.Alike

namespace Source

variable [Source σ] [Source τ] {R : σ → τ → Prop}
  (hread : Alike R (Source.readU8 : Action σ UInt8) (Source.readU8 : Action τ UInt8))
include hread

theorem alike_scalar (k : Scalar) :
    Alike R (k.read : Action σ k.Val) (k.read : Action τ k.Val) := by
  rw [k.read_eq, k.read_eq]
  exact (hread.take k.width).map k.decode

variable (hunits : ∀ n, Alike (Beside R) (Source.readUnits n : Action (σ × Array UInt16) Unit)
  (Source.readUnits n : Action (τ × Array UInt16) Unit))
include hunits

theorem alike_readUtf16 :
    Alike R (Source.readUtf16 : Action σ (Array UInt16)) Source.readUtf16 := by
  have hsize : Alike (Beside R) (gets fun p : σ × Array UInt16 => p.2.size)
      (gets fun p : τ × Array UInt16 => p.2.size) :=
    .gets fun _ _ hpq => congrArg Array.size hpq.2
  have hsteps (total : Nat) :
      Alike (Beside R) (readUnitsInSteps total : Action (σ × Array UInt16) Unit)
        (readUnitsInSteps total) := by
    refine .repeatUntil (hsize.bind fun inHand => ?_) (.pure ()) _
    by_cases hmore : inHand < total
    · rw [if_pos hmore, if_pos hmore]
      exact (hunits _).bind fun _ => .pure none
    · rw [if_neg hmore, if_neg hmore]
      exact .pure (some ())
  have hlength : Alike R (Source.readI32 : Action σ Int32) Source.readI32 :=
    alike_scalar hread .i32
  refine hlength.bind fun length => ?_
  by_cases hnegative : length < 0
  · rw [if_pos hnegative, if_pos hnegative]
    exact .fail _
  · rw [if_neg hnegative, if_neg hnegative]
    exact ((hsteps _).alongside _).bind fun _ => .pure _

theorem alike_readString : Alike R (Source.readString : Action σ String) Source.readString := by
  refine (alike_readUtf16 hread hunits).bind fun units => ?_
  cases Text.Utf16.decode units.toList with
  | none => exact .fail _
  | some text => exact .pure text

/-- What single bytes, code units and bulk reads into a fresh region do, a value does. -/
theorem alike_read
    (hbytes : ∀ n, Alike R
      (alongside (Region.allocate n .indirect) (Source.readBytes : Action (σ × Region) Unit))
      (alongside (Region.allocate n .indirect) (Source.readBytes : Action (τ × Region) Unit)))
    (kind : Kind) : Alike R (kind.read : Action σ Value) (kind.read : Action τ Value) := by
  cases kind with
  | scalar k => exact (alike_scalar hread k).bind fun _ => .pure _
  | bytes n => exact (hbytes n).bind fun _ => .pure _
  | units n => exact ((hunits n).alongside _).bind fun _ => .pure _
  | sequence => exact (alike_readUtf16 hread hunits).bind fun _ => .pure _
  | text => exact (alike_readString hread hunits).bind fun _ => .pure _

end Source

namespace Source.Twins

variable [Source σ] [Source τ] {R : σ → τ → Prop}

/-- Sources that do the same at single operations do the same at every data operation. -/
theorem perform (h : Twins R) (op : Fetch) :
    Alike R (op.perform : Action σ Fetched) (op.perform : Action τ Fetched) := by
  cases op with
  | value kind =>
    exact (alike_read h.readU8 h.readUnits (fun _ => h.readBytes.alongside _) kind).attempt.bind
      fun _ => .pure _
  | bytes region => exact h.readBytes.handBack region Fetched.bytes
  | units n inHand => exact (h.readUnits n).handBack inHand Fetched.units
  | fill region => exact h.fill.handBack region Fetched.fill

end Source.Twins

namespace Sink

variable [Sink σ] [Sink τ] {R : σ → τ → Prop}
  (hwrite : ∀ v, Alike R (Sink.writeU8 v : Action σ Unit) (Sink.writeU8 v : Action τ Unit))
  (hunits : ∀ units,
    Alike R (Sink.writeUnits units : Action σ Unit) (Sink.writeUnits units : Action τ Unit))
include hwrite hunits

theorem alike_writeUtf16 (us : Array UInt16) :
    Alike R (Sink.writeUtf16 us : Action σ Unit) (Sink.writeUtf16 us : Action τ Unit) := by
  rw [Sink.writeUtf16, Sink.writeUtf16]
  by_cases hlong : Sink.maxUnits < us.size
  · rw [if_pos hlong, if_pos hlong]
    exact .fail _
  · rw [if_neg hlong, if_neg hlong]
    exact (Alike.forEach hwrite _).bind fun _ => hunits us

/-- What single bytes, code units and bulk writes do, a value does. -/
theorem alike_write
    (hbytes : ∀ bytes,
      Alike R (Sink.writeBytes bytes : Action σ Unit) (Sink.writeBytes bytes : Action τ Unit))
    (v : Value) : Alike R (v.write : Action σ Unit) (v.write : Action τ Unit) := by
  cases v with
  | scalar k v =>
    rw [Value.write, Value.write, k.write_eq, k.write_eq]
    exact .forEach hwrite _
  | bytes data => exact hbytes data
  | units us => exact hunits us
  | sequence us => exact alike_writeUtf16 hwrite hunits us
  | text s => exact alike_writeUtf16 hwrite hunits _

end Sink

namespace Sink.Twins

variable [Sink σ] [Sink τ] {R : σ → τ → Prop}

/-- Sinks that do the same at single operations do the same at every data operation. -/
theorem perform (h : Twins R) (op : Submit) :
    Alike R (op.perform : Action σ Submitted) (op.perform : Action τ Submitted) := by
  cases op with
  | value v =>
    exact (alike_write h.writeU8 h.writeUnits h.writeBytes v).attempt.bind fun _ => .pure _
  | drain region => exact h.drain.handBack region Submitted.drain
  | flush => exact h.flush.attempt.bind fun _ => .pure _

end Sink.Twins

/-! ## Streams that are closed -/

/-- The single operations of a source are refused as closed, and do nothing. -/
structure Source.Shut [Source σ] (s : σ) : Prop where
  readU8 : Idle (Source.readU8 : Action σ UInt8) s (.error .closed)
  readBytes : ∀ r : Region,
    Idle (Source.readBytes : Action (σ × Region) Unit) (s, r) (.error .closed)
  readUnits : ∀ (n : Nat) (units : Array UInt16),
    Idle (Source.readUnits n : Action (σ × Array UInt16) Unit) (s, units) (.error .closed)
  fill : ∀ r : Region, Idle (Source.fill : Action (σ × Region) Unit) (s, r) (.error .closed)

/-- The single operations of a sink are refused as closed, and do nothing. -/
structure Sink.Shut [Sink σ] (s : σ) : Prop where
  writeU8 : ∀ v, Idle (Sink.writeU8 v : Action σ Unit) s (.error .closed)
  flush : Idle (Sink.flush : Action σ Unit) s (.error .closed)
  writeBytes : ∀ bytes, Idle (Sink.writeBytes bytes : Action σ Unit) s (.error .closed)
  writeUnits : ∀ units, Idle (Sink.writeUnits units : Action σ Unit) s (.error .closed)
  drain : ∀ r : Region, Idle (Sink.drain : Action (σ × Region) Unit) (s, r) (.error .closed)

/-- What was in hand is handed back. -/
theorem Action.Idle.handBack {x : Action (σ × ρ) Unit} {s : σ} {a : ρ} {answer : Except Fault Unit}
    (h : Idle x (s, a) answer) (f : Except Fault Unit → ρ → α) :
    Idle (do let (answer, b) ← Action.alongside a (Action.attempt x); pure (f answer b)) s
      (.ok (f answer a)) :=
  h.attempt.alongside.bind_ok (.pure _ s)

namespace Source.Shut

variable [Source σ] {s : σ}

theorem scalar (h : Shut s) (k : Scalar) :
    Idle (k.read : Action σ k.Val) s (.error .closed) := by
  have htake (n : Nat) :
      Idle (Bytewise.take (Source.readU8 : Action σ UInt8) (n + 1)) s (.error .closed) :=
    h.readU8.bind_error _
  rw [k.read_eq]
  cases k <;> exact (htake _).map _

theorem read (h : Shut s) (kind : Kind) :
    Idle (kind.read : Action σ Value) s (.error .closed) := by
  have hlength : Idle (Source.readI32 : Action σ Int32) s (.error .closed) := h.scalar .i32
  cases kind with
  | scalar k => exact (h.scalar k).bind_error _
  | bytes n => exact (h.readBytes _).alongside.bind_error _
  | units n => exact (h.readUnits n _).alongside.bind_error _
  | sequence => exact (hlength.bind_error _).bind_error _
  | text => exact ((hlength.bind_error _).bind_error _).bind_error _

/-- Every data operation is refused, and hands back what it was handed. -/
theorem perform (h : Shut s) (op : Fetch) :
    Idle (op.perform : Action σ Fetched) s (.ok op.refused) := by
  cases op with
  | value kind => exact (h.read kind).attempt.bind_ok (.pure _ s)
  | bytes region => exact (h.readBytes region).handBack Fetched.bytes
  | units n inHand => exact (h.readUnits n inHand).handBack Fetched.units
  | fill region => exact (h.fill region).handBack Fetched.fill

end Source.Shut

namespace Sink.Shut

variable [Sink σ] {s : σ}

theorem writeNat (h : Shut s) (width n : Nat) :
    Idle (Sink.writeNat (width + 1) n : Action σ Unit) s (.error .closed) := by
  rw [Sink.writeNat, Bytewise.writeList, BigEndian.encode, forEach_cons]
  exact (h.writeU8 _).bind_error _

theorem write (h : Shut s) (v : Value) :
    Idle (v.write : Action σ Unit) s (.error v.refusal) := by
  cases v with
  | scalar k v =>
    rw [Value.write, k.write_eq]
    cases k <;> exact h.writeNat _ _
  | bytes data => exact h.writeBytes data
  | units us => exact h.writeUnits us
  | sequence us => exact idle_writeUtf16 (h.writeNat 3 us.size)
  | text s => exact idle_writeUtf16 (h.writeNat 3 _)

/-- Every data operation is refused, and hands back what it was handed. -/
theorem perform (h : Shut s) (op : Submit) :
    Idle (op.perform : Action σ Submitted) s (.ok op.refused) := by
  cases op with
  | value v => exact (h.write v).attempt.bind_ok (.pure _ s)
  | drain region => exact (h.drain region).handBack Submitted.drain
  | flush => exact h.flush.attempt.bind_ok (.pure _ s)

end Sink.Shut

end ByteFlow
