import ByteFlow.Proofs.Content
import ByteFlow.Sink.Codec
import Mathlib.Tactic.Ring

/-!
# Values of a fixed width

All values of a fixed width travel in the same way: the value is a number, and the
number has so many bytes, the most significant first.  What distinguishes the kinds is
the width and the correspondence between values and numbers.

## Main definitions

* `Scalar` — the kinds of values, with `Scalar.Val`, `Scalar.width`, `Scalar.number` and
  `Scalar.value`.
* `Scalar.read`, `Scalar.write` — the operation for each kind.
* `Scalar.reads_read`, `Scalar.write_eq` — what the operations do.
* `Scalar.decode_encode` — a value is what its bytes denote.
* `BigEndian.encode_decode` — bytes are those of the number that they denote.
-/

namespace ByteFlow

open ByteFlow.Action

/-! ## Big-endian numbers -/

namespace BigEndian

@[simp] theorem length_encode (width n : Nat) : (encode width n).length = width := by
  induction width with
  | zero => rfl
  | succ width ih => rw [encode, List.length_cons, ih]

theorem decode_cons (b : UInt8) (bs : List UInt8) :
    decode (b :: bs) = b.toNat * 256 ^ bs.length + decode bs := by
  have hfrom : ∀ (bs : List UInt8) (n : Nat), bs.foldl (fun n b => n * 256 + b.toNat) n =
      n * 256 ^ bs.length + decode bs := by
    intro bs
    induction bs with
    | nil => intro n; simp [decode]
    | cons c cs ih =>
      intro n
      rw [decode, List.foldl_cons, List.foldl_cons, ih, ih (0 * 256 + c.toNat), List.length_cons]
      ring
  rw [decode, List.foldl_cons, hfrom]
  ring

/-- The bytes of a number denote it, as far as there is room for it. -/
theorem decode_encode (width n : Nat) : decode (encode width n) = n % 256 ^ width := by
  induction width with
  | zero => simp [encode, decode, Nat.mod_one]
  | succ width ih =>
    have hbyte : (n >>> (8 * width)).toUInt8.toNat = n / 256 ^ width % 256 := by
      change n >>> (8 * width) % 256 = n / 256 ^ width % 256
      rw [Nat.shiftRight_eq_div_pow, Nat.pow_mul]
    rw [encode, decode_cons, length_encode, ih, hbyte, Nat.mod_pow_succ]
    ring

theorem decode_encode_of_lt {width n : Nat} (h : n < 256 ^ width) :
    decode (encode width n) = n := by
  rw [decode_encode, Nat.mod_eq_of_lt h]

theorem decode_lt (bs : List UInt8) : decode bs < 256 ^ bs.length := by
  induction bs with
  | nil => decide
  | cons b bs ih =>
    calc decode (b :: bs) = b.toNat * 256 ^ bs.length + decode bs := decode_cons ..
      _ < b.toNat * 256 ^ bs.length + 256 ^ bs.length := Nat.add_lt_add_left ih _
      _ = (b.toNat + 1) * 256 ^ bs.length := (Nat.succ_mul ..).symm
      _ ≤ 256 * 256 ^ bs.length := Nat.mul_le_mul_right _ b.toNat_lt
      _ = 256 ^ (b :: bs).length := (Nat.pow_succ').symm

/-- Bytes that are as many and denote the same number are the same. -/
theorem eq_of_decode_eq {as bs : List UInt8} (hlength : as.length = bs.length)
    (h : decode as = decode bs) : as = bs := by
  induction as generalizing bs with
  | nil => exact (List.length_eq_zero_iff.1 hlength.symm).symm
  | cons a as ih =>
    obtain _ | ⟨b, bs⟩ := bs
    · exact nomatch hlength
    · have hrest : as.length = bs.length := Nat.succ.inj hlength
      have has := decode_lt as
      have hbs := decode_lt bs
      rw [decode_cons, decode_cons, hrest, Nat.mul_comm, Nat.mul_comm b.toNat] at h
      rw [hrest] at has
      have hfirst : a.toNat = b.toNat := by
        have hdiv := congrArg (· / 256 ^ bs.length) h
        simpa only [Nat.mul_add_div (Nat.pow_pos (by decide : 0 < 256)), Nat.div_eq_of_lt has,
          Nat.div_eq_of_lt hbs, Nat.add_zero] using hdiv
      rw [hfirst] at h
      rw [UInt8.toNat_inj.1 hfirst, ih hrest (Nat.add_left_cancel h)]

/-- Bytes are those of the number that they denote. -/
theorem encode_decode (bs : List UInt8) : encode bs.length (decode bs) = bs :=
  eq_of_decode_eq (length_encode ..) (decode_encode_of_lt (decode_lt bs))

end BigEndian

/-! ## Kinds of values -/

/-- The kinds of values of a fixed width. -/
inductive Scalar where
  | bool | i8 | u8 | i16 | u16 | unit | i32 | u32 | i64 | u64 | f32 | f64
  deriving DecidableEq

namespace Scalar

/-- The values of a kind; a floating-point number is its bit pattern. -/
def Val : Scalar → Type
  | bool => Bool
  | i8 => Int8
  | u8 => UInt8
  | i16 => Int16
  | u16 | unit => UInt16
  | i32 => Int32
  | u32 | f32 => UInt32
  | i64 => Int64
  | u64 | f64 => UInt64

/-- How many bytes a value takes. -/
def width : Scalar → Nat
  | bool | i8 | u8 => 1
  | i16 | u16 | unit => 2
  | i32 | u32 | f32 => 4
  | i64 | u64 | f64 => 8

/-- The number that stands for a value. -/
def number : (k : Scalar) → k.Val → Nat
  | bool, v => (Sink.boolByte v).toNat
  | i8, v => (Int8.toUInt8 v).toNat
  | u8, v => UInt8.toNat v
  | i16, v => (Int16.toUInt16 v).toNat
  | u16, v | unit, v => UInt16.toNat v
  | i32, v => (Int32.toUInt32 v).toNat
  | u32, v | f32, v => UInt32.toNat v
  | i64, v => (Int64.toUInt64 v).toNat
  | u64, v | f64, v => UInt64.toNat v

/-- The value that a number stands for.  Any number but zero stands for true. -/
def value : (k : Scalar) → Nat → k.Val
  | bool, n => n.toUInt8 != 0
  | i8, n => n.toUInt8.toInt8
  | u8, n => n.toUInt8
  | i16, n => n.toUInt16.toInt16
  | u16, n | unit, n => n.toUInt16
  | i32, n => n.toUInt32.toInt32
  | u32, n | f32, n => n.toUInt32
  | i64, n => n.toUInt64.toInt64
  | u64, n | f64, n => n.toUInt64

/-- The bytes of a value. -/
def encode (k : Scalar) (v : k.Val) : List UInt8 := BigEndian.encode k.width (k.number v)

/-- The value that bytes denote. -/
def decode (k : Scalar) (bs : List UInt8) : k.Val := k.value (BigEndian.decode bs)

/-- Read a value of the kind. -/
def read {σ : Type} [Source σ] : (k : Scalar) → Action σ k.Val
  | bool => Source.readBool
  | i8 => Source.readI8
  | u8 => Source.readU8
  | i16 => Source.readI16
  | u16 => Source.readU16
  | unit => Source.readUnit
  | i32 => Source.readI32
  | u32 => Source.readU32
  | i64 => Source.readI64
  | u64 => Source.readU64
  | f32 => Source.readF32
  | f64 => Source.readF64

/-- Write a value of the kind. -/
def write {σ : Type} [Sink σ] : (k : Scalar) → k.Val → Action σ Unit
  | bool => Sink.writeBool
  | i8 => Sink.writeI8
  | u8 => Sink.writeU8
  | i16 => Sink.writeI16
  | u16 => Sink.writeU16
  | unit => Sink.writeUnit
  | i32 => Sink.writeI32
  | u32 => Sink.writeU32
  | i64 => Sink.writeI64
  | u64 => Sink.writeU64
  | f32 => Sink.writeF32
  | f64 => Sink.writeF64

@[simp] theorem length_encode (k : Scalar) (v : k.Val) : (k.encode v).length = k.width :=
  BigEndian.length_encode ..

/-- Every value has a number that fits its width and stands for it. -/
theorem number_lt (k : Scalar) (v : k.Val) : k.number v < 256 ^ k.width := by
  cases k with
  | bool | i8 | u8 => exact UInt8.toNat_lt _
  | i16 | u16 | unit => exact UInt16.toNat_lt _
  | i32 | u32 | f32 => exact UInt32.toNat_lt _
  | i64 | u64 | f64 => exact UInt64.toNat_lt _

@[simp] theorem value_number (k : Scalar) (v : k.Val) : k.value (k.number v) = v := by
  cases k with
  | bool => cases v <;> rfl
  | i8 => exact congrArg UInt8.toInt8 (UInt8.ofNat_toNat (x := Int8.toUInt8 v))
  | u8 => exact UInt8.ofNat_toNat (x := v)
  | i16 => exact congrArg UInt16.toInt16 (UInt16.ofNat_toNat (x := Int16.toUInt16 v))
  | u16 | unit => exact UInt16.ofNat_toNat (x := v)
  | i32 => exact congrArg UInt32.toInt32 (UInt32.ofNat_toNat (x := Int32.toUInt32 v))
  | u32 | f32 => exact UInt32.ofNat_toNat (x := v)
  | i64 => exact congrArg UInt64.toInt64 (UInt64.ofNat_toNat (x := Int64.toUInt64 v))
  | u64 | f64 => exact UInt64.ofNat_toNat (x := v)

/-- A value is what its bytes denote. -/
theorem decode_encode (k : Scalar) (v : k.Val) : k.decode (k.encode v) = v := by
  rw [decode, encode, BigEndian.decode_encode_of_lt (k.number_lt v), value_number]

/-! ## Reading -/

/-- Reading a value takes its bytes one after the other and decodes them. -/
theorem read_eq {σ : Type} [Source σ] (k : Scalar) :
    (k.read : Action σ k.Val) = k.decode <$> Bytewise.take Source.readU8 k.width := by
  have hone {α : Type} (f : UInt8 → α) :
      f <$> (Source.readU8 : Action σ UInt8) =
        (fun bs => f (BigEndian.decode bs).toUInt8) <$> Bytewise.take Source.readU8 1 := by
    simp [Bytewise.take, BigEndian.decode]
  cases k with
  | bool | i8 =>
    simp only [read, Source.readBool, Source.readI8, bind_pure_comp]
    exact hone _
  | u8 => exact (id_map _).symm.trans (hone id)
  | i16 | u16 | unit | i32 | u32 | f32 | i64 | u64 | f64 =>
    simp only [read, Source.readI16, Source.readUnit, Source.readU16, Source.readI32,
      Source.readF32, Source.readU32, Source.readI64, Source.readF64, Source.readU64,
      Source.readNat, bind_pure_comp, Functor.map_map]
    rfl

section Read

variable {σ : Type} [Source σ] [Openness σ] [Content σ] [LawfulSource σ]

theorem reads_readNat (width : Nat) :
    Reads (Source.readNat width : Action σ Nat) width BigEndian.decode := by
  rw [Source.readNat, bind_pure_comp]
  exact (LawfulSource.readU8.take width).map _

/-- One byte is read as a number of one byte. -/
theorem toUInt8_decode_singleton {bs : List UInt8} (h : bs.length = 1) :
    (BigEndian.decode bs).toUInt8 = bs.headD 0 := by
  obtain ⟨b, rfl⟩ := List.length_eq_one_iff.1 h
  simp [BigEndian.decode]

/-- Reading a value asks for its width and decodes what comes. -/
theorem reads_read (k : Scalar) : Reads (k.read : Action σ k.Val) k.width k.decode := by
  cases k with
  | bool =>
    refine Reads.congr (f := fun bs => bs.headD 0 != 0) ?_ ?_
    · simp only [read, Source.readBool, bind_pure_comp]
      exact LawfulSource.readU8.map (· != 0)
    · intro bs hbs
      rw [← toUInt8_decode_singleton hbs]
      rfl
  | i8 =>
    refine Reads.congr (f := fun bs => (bs.headD 0).toInt8) ?_ ?_
    · simp only [read, Source.readI8, bind_pure_comp]
      exact LawfulSource.readU8.map UInt8.toInt8
    · intro bs hbs
      rw [← toUInt8_decode_singleton hbs]
      rfl
  | u8 =>
    refine LawfulSource.readU8.congr ?_
    intro bs hbs
    rw [← toUInt8_decode_singleton hbs]
    rfl
  | i16 =>
    simp only [read, Source.readI16, Source.readU16, bind_pure_comp]
    exact ((reads_readNat 2).map Nat.toUInt16).map UInt16.toInt16
  | u16 | unit =>
    simp only [read, Source.readUnit, Source.readU16, bind_pure_comp]
    exact (reads_readNat 2).map Nat.toUInt16
  | i32 =>
    simp only [read, Source.readI32, Source.readU32, bind_pure_comp]
    exact ((reads_readNat 4).map Nat.toUInt32).map UInt32.toInt32
  | u32 | f32 =>
    simp only [read, Source.readF32, Source.readU32, bind_pure_comp]
    exact (reads_readNat 4).map Nat.toUInt32
  | i64 =>
    simp only [read, Source.readI64, Source.readU64, bind_pure_comp]
    exact ((reads_readNat 8).map Nat.toUInt64).map UInt64.toInt64
  | u64 | f64 =>
    simp only [read, Source.readF64, Source.readU64, bind_pure_comp]
    exact (reads_readNat 8).map Nat.toUInt64

end Read

/-! ## Writing -/

section Write

variable {σ : Type}

/-- A number of one byte is written as that byte. -/
theorem writeList_encode_one (put : UInt8 → Action σ Unit) (b : UInt8) :
    Bytewise.writeList put (BigEndian.encode 1 b.toNat) = put b := by
  have hbytes : BigEndian.encode 1 b.toNat = [b] := by simp [BigEndian.encode]
  rw [hbytes, Bytewise.writeList, forEach_cons, forEach_nil]
  exact bind_pure (put b)

/-- Writing a value writes its bytes one after the other. -/
theorem write_eq [Sink σ] (k : Scalar) (v : k.Val) :
    (k.write v : Action σ Unit) = Bytewise.writeList Sink.writeU8 (k.encode v) := by
  cases k with
  | bool | i8 | u8 => exact (writeList_encode_one Sink.writeU8 _).symm
  | i16 | u16 | unit | i32 | u32 | f32 | i64 | u64 | f64 => rfl

end Write

end Scalar

end ByteFlow
