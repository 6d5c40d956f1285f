import ByteFlow.Proofs.Capacity
import ByteFlow.Proofs.Codec.Scalar
import ByteFlow.Proofs.Codec.Utf16
import ByteFlow.Proofs.Meter.Faithful
import ByteFlow.Source.Codec

/-!
# Values survive their bytes

What was written as a list of values is read back as the same list, however the bytes were
split up in between.  Both sides are about a list of bytes only: writing hands on the bytes
of the values one after the other, and reading takes back a value from its bytes, whatever
comes after them.

## Main definitions

* `Value`, `Kind` — everything that can be written, and what has to be known to read it.
* `Value.encode` — the bytes of a value.
* `Recovers x bs a` — the operation `x` makes `a` out of the bytes `bs`.
* `Value.writes_writeAll`, `Value.recovers_readAll` — the two sides.
-/

namespace ByteFlow

open ByteFlow.Action

variable {P σ ρ α β : Type}

/-! ## Values -/

/-- Everything that can be written. -/
inductive Value where
  | scalar (kind : Scalar) (v : kind.Val)
  | bytes (data : Bytes)
  /-- Code units alone. -/
  | units (us : Array UInt16)
  /-- Code units with their number in front. -/
  | sequence (us : Array UInt16)
  | text (s : String)

/-- What has to be known of a value to read it. -/
inductive Kind where
  | scalar (kind : Scalar)
  | bytes (n : Nat)
  | units (n : Nat)
  | sequence
  | text

/-- The bytes of a sequence: its length, and then its units. -/
def sequenceBytes (us : List UInt16) : List UInt8 :=
  BigEndian.encode 4 us.length ++ unitBytes us

namespace Value

/-- What has to be known to read the value. -/
def kind : Value → Kind
  | scalar kind _ => .scalar kind
  | bytes data => .bytes data.size
  | units us => .units us.size
  | sequence _ => .sequence
  | text _ => .text

/-- The bytes of a value. -/
def encode : Value → List UInt8
  | scalar kind v => kind.encode v
  | bytes data => data.list
  | units us => unitBytes us.toList
  | sequence us => sequenceBytes us.toList
  | text s => sequenceBytes (Text.Utf16.encode s)

/-- The number in front of a sequence can count its units. -/
def Fits : Value → Prop
  | sequence us => us.size ≤ Sink.maxUnits
  | text s => (Text.Utf16.encode s).length ≤ Sink.maxUnits
  | _ => True

/-- Write a value. -/
def write [Sink σ] : Value → Action σ Unit
  | scalar kind v => kind.write v
  | bytes data => Sink.writeBytes data
  | units us => Sink.writeUnits us
  | sequence us => Sink.writeUtf16 us
  | text s => Sink.writeString s

/-- Write values, one after the other. -/
def writeAll [Sink σ] (values : List Value) : Action σ Unit := forEach values write

end Value

namespace Kind

/-- Read a value of the kind. -/
def read [Source σ] : Kind → Action σ Value
  | scalar kind => do
    let v ← kind.read
    pure (.scalar kind v)
  | bytes n => do
    let (_, region) ← alongside (Region.allocate n .indirect) Source.readBytes
    pure (.bytes region.bytes)
  | units n => do
    let (_, us) ← alongside #[] (Source.readUnits n)
    pure (.units us)
  | sequence => do
    let us ← Source.readUtf16
    pure (.sequence us)
  | text => do
    let s ← Source.readString
    pure (.text s)

/-- Read values, one after the other. -/
def readAll [Source σ] : List Kind → Action σ (List Value)
  | [] => pure []
  | kind :: others => do
    let v ← kind.read
    let values ← readAll others
    pure (v :: values)

end Kind

/-! ## Code units -/

@[simp] theorem length_unitBytes (us : List UInt16) : (unitBytes us).length = 2 * us.length := by
  induction us with
  | nil => rfl
  | cons u us ih =>
    rw [unitBytes, List.flatMap_cons, List.length_append, BigEndian.length_encode, ← unitBytes, ih,
      List.length_cons]
    omega

theorem unitBytes_append (us vs : List UInt16) :
    unitBytes (us ++ vs) = unitBytes us ++ unitBytes vs :=
  List.flatMap_append ..

/-- The bytes of code units denote them. -/
theorem unitsOf_unitBytes (us : List UInt16) : unitsOf (unitBytes us) = us := by
  induction us with
  | nil => rfl
  | cons u us ih =>
    have hlength : (BigEndian.encode 2 u.toNat).length = 2 := BigEndian.length_encode ..
    have hunit : (BigEndian.decode (BigEndian.encode 2 u.toNat)).toUInt16 = u :=
      Scalar.decode_encode .u16 u
    rw [unitBytes, List.flatMap_cons, ← unitBytes, unitsOf_eq_cons (by simp),
      List.take_left' hlength, List.drop_left' hlength, hunit, ih]

/-! ## Writing -/

section Write

variable [Sink σ] [Openness σ] [Meter σ] [Capacity σ] [LawfulSink σ]

theorem writes_writeUtf16 (us : Array UInt16) (h : us.size ≤ Sink.maxUnits) :
    Writes (Sink.writeUtf16 us : Action σ Unit) (sequenceBytes us.toList) := by
  rw [Sink.writeUtf16, if_neg (Nat.not_lt.2 h)]
  exact (LawfulSink.writeU8.writeList _).bind (LawfulSink.writeUnits us)

namespace Value

theorem writes_write (v : Value) (h : v.Fits) : Writes (v.write : Action σ Unit) v.encode := by
  cases v with
  | scalar kind v =>
    rw [write, kind.write_eq]
    exact LawfulSink.writeU8.writeList _
  | bytes data => exact LawfulSink.writeBytes data
  | units us => exact LawfulSink.writeUnits us
  | sequence us => exact writes_writeUtf16 us h
  | text s => exact writes_writeUtf16 (Text.Utf16.encode s).toArray h

/-- Values are written by their bytes, one after the other. -/
theorem writes_writeAll {values : List Value} (h : ∀ v ∈ values, v.Fits) :
    Writes (writeAll values : Action σ Unit) (values.flatMap encode) :=
  Writes.forEach fun v hv => v.writes_write (h v hv)

end Value

end Write

/-! ## Reading -/

section Read

variable [Openness σ] [Content σ]

/-- Where the content begins with these bytes, the operation takes them and answers `a`. -/
def Recovers (x : Action σ α) (bs : List UInt8) (a : α) : Prop :=
  ∀ (s : σ) (rest : List UInt8), IsOpen s → content s = bs ++ rest →
    x.Ends s fun answer t => answer = .ok a ∧ IsOpen t ∧ content t = rest

/-- The same for an operation that leaves what it made in its companion. -/
def Collects (x : Action (σ × ρ) Unit) (a : ρ) (bs : List UInt8) (b : ρ) : Prop :=
  ∀ (s : σ) (rest : List UInt8), IsOpen s → content s = bs ++ rest →
    x.Ends (s, a) fun answer p => answer = .ok () ∧ IsOpen p.1 ∧ content p.1 = rest ∧ p.2 = b

namespace Recovers

variable {x : Action σ α} {bs cs : List UInt8} {a : α} {b : β}

protected theorem pure (a : α) : Recovers (pure a : Action σ α) [] a := by
  intro s rest hs hcontent
  exact ⟨rfl, hs, hcontent⟩

protected theorem bind {f : α → Action σ β} (hx : Recovers x bs a) (hf : Recovers (f a) cs b) :
    Recovers (x >>= f) (bs ++ cs) b := by
  intro s rest hs hcontent
  rw [List.append_assoc] at hcontent
  rw [ends_bind]
  refine (hx s _ hs hcontent).of_answer ?_
  intro t hends
  obtain ⟨ht, hrest⟩ := hends
  exact hf t rest ht hrest

theorem map (f : α → β) (hx : Recovers x bs a) : Recovers (f <$> x) bs (f a) := by
  intro s rest hs hcontent
  rw [ends_map]
  refine (hx s rest hs hcontent).of_answer ?_
  intro t ht
  exact ⟨rfl, ht⟩

end Recovers

/-- A request for as many bytes as there are in front of the rest. -/
theorem Reads.recovers {x : Action σ α} {n : Nat} {f : List UInt8 → α} {bs : List UInt8}
    (h : Reads x n f) (hn : bs.length = n) : Recovers x bs (f bs) := by
  intro s rest hs hcontent
  have hle : n ≤ (content s).length := by
    rw [hcontent, List.length_append]
    omega
  refine (h s hs).of_answer ?_
  intro t hends
  obtain ⟨ht, hrest⟩ := hends
  rw [delivered_of_le hle]
  rw [hcontent, List.drop_left' hn] at hrest
  rw [hcontent, List.take_left' hn]
  exact ⟨rfl, ht, hrest⟩

theorem Gathers.collects {x : Action (σ × ρ) Unit} {a : ρ} {n : Nat} {add : List UInt8 → ρ}
    (h : Gathers x a n add) (bs : List UInt8) (hn : bs.length = n) : Collects x a bs (add bs) := by
  intro s rest hs hcontent
  have hle : n ≤ (content s).length := by
    rw [hcontent, List.length_append]
    omega
  refine (h s hs).of_answer ?_
  intro final hends
  obtain ⟨t, b⟩ := final
  obtain ⟨⟨ht, hrest⟩, rfl⟩ := hends
  rw [delivered_of_le hle]
  dsimp only at hrest
  rw [hcontent, List.drop_left' hn] at hrest
  rw [hcontent, List.take_left' hn]
  exact ⟨rfl, ht, hrest, rfl⟩

/-- What was collected is the answer. -/
theorem Collects.recovers {x : Action (σ × ρ) Unit} {a b : ρ} {bs : List UInt8}
    (h : Collects x a bs b) (f : ρ → α) :
    Recovers (do let (_, b) ← alongside a x; pure (f b)) bs (f b) := by
  intro s rest hs hcontent
  rw [ends_bind, ends_alongside]
  refine (h s rest hs hcontent).of_answer ?_
  intro final hends
  obtain ⟨t, c⟩ := final
  obtain ⟨ht, hrest, rfl⟩ := hends
  exact ⟨rfl, ht, hrest⟩

/-! ### Sequences -/

variable [Source σ] [LawfulSource σ]

theorem collects_readUnits {n : Nat} (inHand : Array UInt16) (us : List UInt16)
    (hn : us.length = n) :
    Collects (Source.readUnits n : Action (σ × Array UInt16) Unit) inHand (unitBytes us)
      (inHand ++ us.toArray) := by
  have hcollects := (LawfulSource.readUnits (σ := σ) n inHand).collects (unitBytes us)
    (by rw [length_unitBytes, hn])
  rwa [unitsOf_unitBytes] at hcollects

/-- One step of reading code units until there are `total` of them. -/
def readStep (total : Nat) : Action (σ × Array UInt16) (Option Unit) := do
  let inHand ← gets fun (_, units) => units.size
  if inHand < total then
    Source.readUnits (min (total - inHand) Source.unitStep)
    pure none
  else
    pure (some ())

/-- Each step takes a full one's worth of units, until there are fewer left. -/
theorem collects_steps {total : Nat} (turns : Nat) (inHand : Array UInt16) (us : List UInt16)
    (htotal : inHand.size + us.length = total) (hturns : us.length ≤ turns * Source.unitStep) :
    Collects (repeatUntil turns (readStep total) (pure ()) : Action (σ × Array UInt16) Unit)
      inHand (unitBytes us) (inHand ++ us.toArray) := by
  induction turns generalizing inHand us with
  | zero =>
    obtain rfl : us = [] := List.length_eq_zero_iff.1 (by omega)
    intro s rest hs hcontent
    exact ⟨rfl, hs, hcontent, by simp⟩
  | succ turns ih =>
    intro s rest hs hcontent
    rw [ends_repeatUntil_succ, readStep, ends_gets_bind]
    dsimp only
    by_cases hmore : inHand.size < total
    · rw [if_pos hmore, ends_bind]
      generalize hk : min (total - inHand.size) Source.unitStep = k
      have hlength : (us.take k).length = k := List.length_take_of_le (by omega)
      have hbytes : unitBytes us = unitBytes (us.take k) ++ unitBytes (us.drop k) := by
        rw [← unitBytes_append, List.take_append_drop]
      have hall : inHand ++ (us.take k).toArray ++ (us.drop k).toArray = inHand ++ us.toArray := by
        simp
      rw [hbytes, List.append_assoc] at hcontent
      refine (collects_readUnits inHand _ hlength s _ hs hcontent).of_answer ?_
      intro final hends
      obtain ⟨t, units⟩ := final
      obtain ⟨ht, hrest, rfl⟩ := hends
      rw [← hall]
      refine ih _ _ ?_ ?_ t rest ht hrest
      · simp only [Array.size_append, List.size_toArray, List.length_take, List.length_drop]
        omega
      · rw [List.length_drop]
        rw [Nat.succ_mul] at hturns
        omega
    · rw [if_neg hmore]
      obtain rfl : us = [] := List.length_eq_zero_iff.1 (by omega)
      exact ⟨rfl, hs, hcontent, by simp⟩

/-- A length that fits is no negative number. -/
theorem toInt_length {n : Nat} (h : n ≤ Sink.maxUnits) : n.toUInt32.toInt32.toInt = n := by
  refine Int32.toInt_ofNat_of_lt ?_
  rw [Sink.maxUnits] at h
  omega

theorem recovers_length {n : Nat} (h : n ≤ Sink.maxUnits) :
    Recovers (Source.readI32 : Action σ Int32) (BigEndian.encode 4 n) n.toUInt32.toInt32 := by
  have hn : n < 256 ^ 4 := Nat.lt_of_le_of_lt h (by decide)
  have hread : Recovers (Source.readI32 : Action σ Int32) (BigEndian.encode 4 n)
      (BigEndian.decode (BigEndian.encode 4 n)).toUInt32.toInt32 :=
    (Scalar.i32.reads_read (σ := σ)).recovers (BigEndian.length_encode ..)
  rwa [BigEndian.decode_encode_of_lt hn] at hread

theorem recovers_readUtf16 (us : List UInt16) (h : us.length ≤ Sink.maxUnits) :
    Recovers (Source.readUtf16 : Action σ (Array UInt16)) (sequenceBytes us) us.toArray := by
  have hlength := toInt_length h
  have hpos : ¬us.length.toUInt32.toInt32 < 0 := by
    rw [Int32.lt_iff_toInt_lt, hlength, Int32.toInt_zero]
    omega
  refine (recovers_length h).bind ?_
  rw [if_neg hpos, hlength]
  have hsteps := collects_steps (σ := σ) (us.length / Source.unitStep + 1) #[] us
    (Nat.zero_add _) ?_
  · rw [Array.empty_append] at hsteps
    exact hsteps.recovers id
  · rw [Nat.mul_comm]
    exact Nat.le_of_lt (Nat.lt_mul_div_succ us.length (by decide))

theorem recovers_readString (s : String) (h : (Text.Utf16.encode s).length ≤ Sink.maxUnits) :
    Recovers (Source.readString : Action σ String) (sequenceBytes (Text.Utf16.encode s)) s := by
  have hstring : Recovers (Source.readString : Action σ String)
      (sequenceBytes (Text.Utf16.encode s) ++ []) s := by
    refine (recovers_readUtf16 _ h).bind ?_
    rw [Text.Utf16.decode_encode]
    exact Recovers.pure s
  rwa [List.append_nil] at hstring

/-! ### Whole values -/

/-- A new region that receives as many bytes as it has room for holds these and no others. -/
theorem bytes_receive_allocate (data : Bytes) (placement : Placement) :
    ((Region.allocate data.size placement).receive data.list).bytes = data := by
  refine Bytes.ext_list ?_
  rw [Region.list_receive]
  simp [Region.allocate]

theorem Value.recovers_read (v : Value) (h : v.Fits) :
    Recovers (v.kind.read : Action σ Value) v.encode v := by
  cases v with
  | scalar kind v =>
    have hread := (kind.reads_read (σ := σ)).recovers (kind.length_encode v)
    rw [kind.decode_encode] at hread
    simp only [Value.kind, Kind.read, bind_pure_comp]
    exact hread.map (Value.scalar kind)
  | bytes data =>
    have hwritable : (Region.allocate data.size .indirect).Writable :=
      ⟨⟨Nat.zero_le _, by simp [Region.allocate, Region.capacity]⟩, rfl⟩
    have hread := (LawfulSource.readBytes (σ := σ) hwritable).collects data.list rfl
    have hall := hread.recovers fun region => Value.bytes region.bytes
    rwa [bytes_receive_allocate] at hall
  | units us =>
    have hread := collects_readUnits (σ := σ) #[] us.toList rfl
    rw [Array.empty_append, Array.toArray_toList] at hread
    exact hread.recovers Value.units
  | sequence us =>
    have hread := recovers_readUtf16 (σ := σ) us.toList h
    rw [Array.toArray_toList] at hread
    simp only [Value.kind, Kind.read, bind_pure_comp]
    exact hread.map Value.sequence
  | text s =>
    simp only [Value.kind, Kind.read, bind_pure_comp]
    exact (recovers_readString s h).map Value.text

/-- Values are read back from their bytes. -/
theorem Value.recovers_readAll {values : List Value} (h : ∀ v ∈ values, v.Fits) :
    Recovers (Kind.readAll (values.map kind) : Action σ (List Value)) (values.flatMap encode)
      values := by
  induction values with
  | nil => exact Recovers.pure []
  | cons v values ih =>
    simp only [List.map_cons, Kind.readAll, bind_pure_comp, List.flatMap_cons]
    refine (v.recovers_read (h v List.mem_cons_self)).bind ?_
    exact (ih fun w hw => h w (List.mem_cons_of_mem v hw)).map (v :: ·)

end Read

/-! ## Both sides, over members in memory -/

/-- Each sink holds what it held before and one part more, and the parts make up the
bytes. -/
def SplitBetween (bs : List UInt8) (sinks sinks' : List MemorySink) : Prop :=
  ∃ parts : List (List UInt8), parts.flatten = bs ∧ parts.length = sinks.length ∧
    sinks'.map (·.written.list) =
      List.zipWith (· ++ ·) (sinks.map (·.written.list)) parts

theorem Chain.Parts.splitBetween {sinks sinks' : List MemorySink} {bs : List UInt8}
    (h : Parts sinks bs sinks') : SplitBetween bs sinks sinks' := by
  induction h with
  | nil => exact ⟨[], rfl, rfl, rfl⟩
  | @cons m part m' rest cs rest' hm _ ih =>
    obtain ⟨parts, hflatten, hlength, hwritten⟩ := ih
    refine ⟨part :: parts, ?_, ?_, ?_⟩
    · rw [List.flatten_cons, hflatten]
    · rw [List.length_cons, List.length_cons, hlength]
    · rw [List.map_cons, List.map_cons, List.zipWith_cons_cons, hm.1, hwritten]

/-- New sinks hold the parts and nothing else. -/
theorem SplitBetween.flatMap_written {bs : List UInt8} {sinks sinks' : List MemorySink}
    (h : SplitBetween bs sinks sinks') (hnew : ∀ s ∈ sinks, s.position = 0) :
    sinks'.flatMap (·.written.list) = bs := by
  obtain ⟨parts, rfl, hlength, hwritten⟩ := h
  rw [List.flatMap_def, hwritten]
  clear hwritten
  induction sinks generalizing parts with
  | nil =>
    obtain rfl : parts = [] := List.length_eq_zero_iff.1 hlength
    rfl
  | cons s rest ih =>
    cases parts with
    | nil => exact nomatch hlength
    | cons part parts =>
      have hempty : s.written.list = [] := by
        rw [MemorySink.written, hnew s List.mem_cons_self, Bytes.list_extract, List.take_zero,
          List.drop_zero]
      have hrest := ih (fun t ht => hnew t (List.mem_cons_of_mem s ht)) parts
        (Nat.succ.inj hlength)
      rw [List.map_cons, List.zipWith_cons_cons, hempty, List.nil_append, List.flatten_cons, hrest,
        List.flatten_cons]

theorem capacity_new (policy : P) (sinks : List MemorySink) :
    capacity (Chain.new policy sinks) = ((sinks.map MemorySink.available).sum : ℕ) := by
  change (sinks.map capacity).sum = _
  induction sinks with
  | nil => rfl
  | cons s rest ih =>
    rw [List.map_cons, List.sum_cons, ih, List.map_cons, List.sum_cons, Nat.cast_add]
    rfl

/-- A new chain of sinks takes bytes in parts, in the order of its members. -/
theorem Chain.splitBetween_of_moved {policy : P} {sinks : List MemorySink} {bs : List UInt8}
    {c : Chain P MemorySink} (h : Moved (Chain.new policy sinks) bs c) :
    SplitBetween bs sinks c.members := by
  obtain ⟨still, parted, heq, hstill, hparts⟩ := Trail.parts h
  obtain rfl : still = [] := List.forall₂_nil_left_iff.1 hstill
  rw [members, heq]
  exact hparts.splitBetween

/-- Values that were written to a chain of sinks are read back from any chain of sources
that has their bytes, and nothing is left over. -/
theorem Chain.round_trip {values : List Value} (hfits : ∀ v ∈ values, v.Fits)
    (policy : StandardPolicy) {sinks : List MemorySink} (hsinks : ∀ s ∈ sinks, IsOpen s)
    (hroom : (values.flatMap Value.encode).length ≤ (sinks.map MemorySink.available).sum) :
    (Value.writeAll values).Ends (Chain.new policy sinks) (fun answer c =>
      answer = .ok () ∧
        SplitBetween (values.flatMap Value.encode) sinks c.members ∧
        ((∀ s ∈ sinks, s.position = 0) →
          c.members.flatMap (·.written.list) = values.flatMap Value.encode)) ∧
    ∀ (policy' : StandardPolicy) (sources : List MemorySource), (∀ s ∈ sources, IsOpen s) →
      sources.flatMap content = values.flatMap Value.encode →
      (Kind.readAll (values.map Value.kind)).Ends (Chain.new policy' sources) (fun answer c =>
        answer = .ok values ∧ content c = [] ∧
          (Source.readU8 : Action (Chain StandardPolicy MemorySource) UInt8).Ends c
            fun answer _ => answer = .error .endOfStream) := by
  constructor
  · have hcapacity : ((values.flatMap Value.encode).length : ℕ∞) ≤
        capacity (Chain.new policy sinks) := by
      rw [capacity_new]
      exact_mod_cast hroom
    have hopen : IsOpen (Chain.new policy sinks) := (isOpen_chain_new policy sinks).2 hsinks
    refine (Value.writes_writeAll hfits _ hopen hcapacity).of_answer ?_
    intro c htakes
    have hsplit := splitBetween_of_moved htakes.2.1
    exact ⟨rfl, hsplit, hsplit.flatMap_written⟩
  · intro policy' sources hsources hcontent
    have hopen : IsOpen (Chain.new policy' sources) :=
      (isOpen_chain_new policy' sources).2 hsources
    have hbytes : content (Chain.new policy' sources) = values.flatMap Value.encode ++ [] := by
      rw [List.append_nil]
      exact hcontent
    refine (Value.recovers_readAll hfits _ [] hopen hbytes).of_answer ?_
    intro c hends
    obtain ⟨hc, hrest⟩ := hends
    refine ⟨rfl, hrest, ?_⟩
    refine (LawfulSource.readU8 c hc).of_answer ?_
    intro d _
    rw [hrest]
    rfl

/-- A number and a string of one character, written to sinks of three and of seven bytes and
read back in other parts, one of them empty. -/
theorem Chain.round_trip_of_number_and_text :
    (Value.writeAll [.scalar .u32 (0x01020304 : UInt32), .text "a"]).Ends
      (Chain.new StandardPolicy.close
        [(⟨Bytes.replicate 3 0, 0, false⟩ : MemorySink), ⟨Bytes.replicate 7 0, 0, false⟩])
      (fun answer c => answer = .ok () ∧
        c.members.flatMap (·.written.list) = [1, 2, 3, 4, 0, 0, 0, 1, 0, 97]) ∧
    (Kind.readAll [.scalar .u32, .text]).Ends
      (Chain.new StandardPolicy.fence
        [(⟨Bytes.ofList [1], 0, false⟩ : MemorySource), ⟨Bytes.ofList [], 0, false⟩,
          ⟨Bytes.ofList [2, 3, 4, 0, 0, 0, 1, 0, 97], 0, false⟩])
      (fun answer c => answer = .ok [.scalar .u32 (0x01020304 : UInt32), .text "a"] ∧
        content c = []) := by
  have hencode : [Value.scalar .u32 (0x01020304 : UInt32), .text "a"].flatMap Value.encode =
      [1, 2, 3, 4, 0, 0, 0, 1, 0, 97] := by decide
  have hfits : ∀ v ∈ [Value.scalar .u32 (0x01020304 : UInt32), .text "a"], v.Fits := by
    have hlength : (Text.Utf16.encode "a").length ≤ Sink.maxUnits := by decide
    exact List.forall_mem_cons.2 ⟨trivial, List.forall_mem_singleton.2 hlength⟩
  have hsinks : ∀ s ∈ [(⟨Bytes.replicate 3 0, 0, false⟩ : MemorySink),
      ⟨Bytes.replicate 7 0, 0, false⟩], IsOpen s :=
    List.forall_mem_cons.2 ⟨rfl, List.forall_mem_singleton.2 rfl⟩
  have h := Chain.round_trip hfits .close hsinks ?_
  · constructor
    · refine h.1.of_answer ?_
      intro c hends
      obtain ⟨-, hwritten⟩ := hends
      exact ⟨rfl, (hwritten (by decide)).trans hencode⟩
    · refine (h.2 .fence _ ?_ ?_).mono ?_
      · refine List.forall_mem_cons.2 ⟨rfl, List.forall_mem_cons.2 ⟨rfl, ?_⟩⟩
        exact List.forall_mem_singleton.2 rfl
      · rw [hencode]
        rfl
      · intro answer c hends
        obtain ⟨rfl, hc, -⟩ := hends
        exact ⟨rfl, hc⟩
  · rw [hencode]
    decide

end ByteFlow
