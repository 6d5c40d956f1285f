import ByteFlow.Proofs.Bounds.Endpoint
import ByteFlow.Proofs.Codec.Truncation

/-!
# The grammar of sequences

Where a sequence is expected, any bytes at all hold one of three things: a number of code units
and at least as many units, a negative number, or too few bytes to tell.  Reading tells which, and
takes as many bytes as it needs for that and no others.  The bytes of a sequence that was read are
those that are written for it, so that there is no second way to write it; the same holds of
strings, which are the sequences without a surrogate outside a pair.

## Main definitions

* `announced bs` — the number of code units that the first four bytes announce.
* `SequenceAt bs answer k` — what the bytes hold where a sequence is expected.
* `sequenceBytes_unitsOf` — the bytes of a sequence are those that are written for it.
* `SequenceAt.ends_readUtf16` — reading tells what the content holds.
* `textOf us` — what is answered for the units of a string.
* `MemorySource.sequence_grammar` — both, for what is left of an array.
-/

namespace ByteFlow

open ByteFlow.Action

variable {σ α : Type} {bs : List UInt8} {n k : Nat}

/-! ## Bytes and units -/

/-- The number of code units that the first four bytes announce. -/
def announced (bs : List UInt8) : Int :=
  (BigEndian.decode (bs.take 4)).toUInt32.toInt32.toInt

/-- What bytes hold where a sequence is expected: its code units or what is wrong with it, and how
many of the bytes have to be read to know. -/
inductive SequenceAt (bs : List UInt8) : Except Fault (List UInt16) → Nat → Prop
  /-- There are too few bytes for the number in front, or for as many units as it says. -/
  | short (h : bs.length < 4 ∨ 0 ≤ announced bs ∧ (bs.length : Int) < 4 + 2 * announced bs) :
      SequenceAt bs (.error .endOfStream) bs.length
  | negative (hlength : 4 ≤ bs.length) (h : announced bs < 0) :
      SequenceAt bs (.error (.corrupt (.negativeLength (announced bs)))) 4
  | whole (n : Nat) (hn : announced bs = n) (hlength : 4 + 2 * n ≤ bs.length) :
      SequenceAt bs (.ok (unitsOf ((bs.drop 4).take (2 * n)))) (4 + 2 * n)

/-- Any bytes hold something. -/
theorem exists_sequenceAt (bs : List UInt8) : ∃ answer k, SequenceAt bs answer k := by
  by_cases hshort : bs.length < 4 ∨ 0 ≤ announced bs ∧ (bs.length : Int) < 4 + 2 * announced bs
  · exact ⟨_, _, .short hshort⟩
  · rw [not_or, not_and] at hshort
    by_cases hnegative : announced bs < 0
    · exact ⟨_, _, .negative (Nat.le_of_not_lt hshort.1) hnegative⟩
    · have hn : announced bs = (announced bs).toNat := by omega
      exact ⟨_, _, .whole _ hn (by omega)⟩

/-- The bytes of a code unit are those that it was made of. -/
theorem encode_unit (a b : UInt8) :
    BigEndian.encode 2 (BigEndian.decode [a, b]).toUInt16.toNat = [a, b] := by
  have hlt : BigEndian.decode [a, b] < 256 ^ 2 := BigEndian.decode_lt [a, b]
  rw [Text.Utf16.toNat_toUInt16 (by omega)]
  exact BigEndian.encode_decode [a, b]

theorem length_unitsOf (h : bs.length = 2 * n) : (unitsOf bs).length = n := by
  induction n generalizing bs with
  | zero =>
    obtain rfl := List.length_eq_zero_iff.1 h
    rfl
  | succ n ih =>
    rw [unitsOf_eq_cons (by omega), List.length_cons, ih]
    rw [List.length_drop]
    omega

theorem unitsOf_append (h : bs.length = 2 * n) (cs : List UInt8) :
    unitsOf (bs ++ cs) = unitsOf bs ++ unitsOf cs := by
  induction n generalizing bs with
  | zero =>
    obtain rfl := List.length_eq_zero_iff.1 h
    rfl
  | succ n ih =>
    match bs, h with
    | a :: b :: rest, h =>
      rw [List.cons_append, List.cons_append, unitsOf, unitsOf, List.cons_append, ih]
      rw [List.length_cons, List.length_cons] at h
      omega

/-- An even number of bytes are those of the code units in them. -/
theorem unitBytes_unitsOf (h : bs.length = 2 * n) : unitBytes (unitsOf bs) = bs := by
  induction n generalizing bs with
  | zero =>
    obtain rfl := List.length_eq_zero_iff.1 h
    rfl
  | succ n ih =>
    match bs, h with
    | a :: b :: rest, h =>
      have hrest : rest.length = 2 * n := by
        rw [List.length_cons, List.length_cons] at h
        omega
      rw [unitsOf, unitBytes, List.flatMap_cons, ← unitBytes, ih hrest, encode_unit]
      rfl

/-- A number that is not negative is the one that the bytes denote without a sign. -/
theorem decode_take_of_announced (hn : announced bs = n) (hlength : 4 ≤ bs.length) :
    BigEndian.decode (bs.take 4) = n ∧ n ≤ Sink.maxUnits := by
  have hlt := BigEndian.decode_lt (bs.take 4)
  rw [List.length_take_of_le hlength] at hlt
  have hvalue : announced bs = (BigEndian.decode (bs.take 4) : Int).bmod (2 ^ 32) :=
    Int32.toInt_ofNat'
  rw [hvalue, Int.bmod_def] at hn
  rw [Sink.maxUnits]
  split at hn <;> omega

theorem length_take_drop (hlength : 4 + 2 * n ≤ bs.length) :
    ((bs.drop 4).take (2 * n)).length = 2 * n := by
  rw [List.length_take, List.length_drop]
  omega

/-- The units of a sequence can be counted. -/
theorem length_unitsOf_le (hn : announced bs = n) (hlength : 4 + 2 * n ≤ bs.length) :
    (unitsOf ((bs.drop 4).take (2 * n))).length ≤ Sink.maxUnits := by
  rw [length_unitsOf (length_take_drop hlength)]
  exact (decode_take_of_announced hn (by omega)).2

/-- The bytes of a sequence are those that are written for it. -/
theorem sequenceBytes_unitsOf (hn : announced bs = n) (hlength : 4 + 2 * n ≤ bs.length) :
    sequenceBytes (unitsOf ((bs.drop 4).take (2 * n))) = bs.take (4 + 2 * n) := by
  have hunits := length_take_drop hlength
  have hfront : BigEndian.encode 4 n = bs.take 4 := by
    rw [← (decode_take_of_announced hn (by omega)).1]
    have hfour : (bs.take 4).length = 4 := List.length_take_of_le (by omega)
    simpa only [hfour] using BigEndian.encode_decode (bs.take 4)
  rw [sequenceBytes, length_unitsOf hunits, unitBytes_unitsOf hunits, hfront, List.take_add]

/-! ## Reading -/

section Read

variable [Source σ] [Openness σ] [Content σ] [LawfulSource σ] {s : σ}

/-- Where bytes are missing, it is as if the bytes of some sequence had been cut off. -/
theorem ends_readUtf16_of_short (hs : IsOpen s)
    (h : (content s).length < 4 ∨
      0 ≤ announced (content s) ∧ ((content s).length : Int) < 4 + 2 * announced (content s)) :
    (Source.readUtf16 : Action σ (Array UInt16)).Ends s fun answer t =>
      answer = .error .endOfStream ∧ IsOpen t ∧ content t = [] := by
  by_cases hfour : (content s).length < 4
  · have hpadded : (content s ++ List.replicate (4 - (content s).length) 0).length = 4 := by
      rw [List.length_append, List.length_replicate]
      omega
    have hnumber : RunsDry (Source.readI32 : Action σ Int32) _ :=
      (Scalar.i32.reads_read (σ := σ)).runsDry hpadded
    refine hnumber.bind_left _ s hs (List.prefix_append ..) ?_
    rwa [hpadded]
  · obtain ⟨hpos, hlength⟩ := h.resolve_left hfour
    obtain ⟨n, hn⟩ := Int.eq_ofNat_of_zero_le hpos
    generalize hpadded : content s ++ List.replicate (2 * n) 0 = padded
    have hannounced : announced padded = n := by
      rw [← hn, announced, announced, ← hpadded, List.take_append_of_le_length (by omega)]
    have hall : 4 + 2 * n ≤ padded.length := by
      rw [← hpadded, List.length_append, List.length_replicate]
      omega
    have hbytes := sequenceBytes_unitsOf hannounced hall
    refine runsDry_readUtf16 _ (length_unitsOf_le hannounced hall) s hs ?_ ?_
    · rw [hbytes, ← hpadded, List.prefix_take_iff]
      exact ⟨List.prefix_append .., by omega⟩
    · rw [hbytes, List.length_take_of_le hall]
      omega

theorem recovers_readI32 (h : 4 ≤ bs.length) :
    Recovers (Source.readI32 : Action σ Int32) (bs.take 4)
      (BigEndian.decode (bs.take 4)).toUInt32.toInt32 :=
  (Scalar.i32.reads_read (σ := σ)).recovers (List.length_take_of_le h)

/-- Reading a sequence tells what the content holds. -/
theorem SequenceAt.ends_readUtf16 {answer : Except Fault (List UInt16)}
    (h : SequenceAt (content s) answer k) (hs : IsOpen s) :
    (Source.readUtf16 : Action σ (Array UInt16)).Ends s fun got t =>
      got = answer.map List.toArray ∧ Advanced s k t := by
  cases h with
  | short h =>
    refine (ends_readUtf16_of_short hs h).of_answer ?_
    rintro t ⟨ht, hrest⟩
    exact ⟨rfl, ht, hrest.trans List.drop_length.symm⟩
  | negative hlength h =>
    rw [Source.readUtf16, ends_bind]
    refine (recovers_readI32 hlength s _ hs (List.take_append_drop 4 _).symm).of_answer ?_
    intro t ht
    have hnegative : (BigEndian.decode ((content s).take 4)).toUInt32.toInt32 < 0 := by
      rwa [Int32.lt_iff_toInt_lt]
    dsimp only
    rw [if_pos hnegative]
    exact ⟨rfl, ht⟩
  | whole n hn hlength =>
    refine recovers_readUtf16 _ (length_unitsOf_le hn hlength) s _ hs ?_
    rw [sequenceBytes_unitsOf hn hlength, List.take_append_drop]

end Read

/-! ## Arrays -/

namespace MemorySource

/-- An operation that takes so many bytes of the content of an array moves the position by as many,
and changes nothing else. -/
theorem ends_of_advanced {x : Action MemorySource α} {s : MemorySource} {answer : Except Fault α}
    (hkeeps : Keeps (fun s : MemorySource => s.position ≤ s.data.size) x) (hs : IsOpen s)
    (hposition : s.position ≤ s.data.size) (hk : k ≤ (content s).length)
    (h : x.Ends s fun got t => got = answer ∧ @Advanced _ (Openness.since s) _ s k t) :
    x.Ends s fun got t => got = answer ∧ t = { s with position := s.position + k } := by
  refine (h.and (hkeeps s hposition)).mono ?_
  rintro got t ⟨⟨hanswer, ⟨ht, bs, hmoved⟩, hrest⟩, hle⟩
  have hlength := congrArg List.length hrest
  rw [List.length_drop, length_content, length_content] at hlength
  rw [length_content] at hk
  rcases s with ⟨data, position, closed⟩
  rcases t with ⟨data', position', closed'⟩
  obtain rfl : data' = data := hmoved.1
  obtain rfl : closed = false := hs
  obtain rfl : closed' = false := ht
  have hmove : position' = position + k := by
    simp only [available] at hlength hk
    dsimp only at hle hposition
    omega
  rw [hmove]
  exact ⟨hanswer, rfl⟩

theorem keeps_readUtf16 : Keeps (fun s : MemorySource => s.position ≤ s.data.size)
    (Source.readUtf16 : Action MemorySource (Array UInt16)) := by
  have h := steady.read .sequence
  simp only [Kind.read, bind_pure_comp, Keeps, ends_map] at h
  exact h

theorem keeps_readString : Keeps (fun s : MemorySource => s.position ≤ s.data.size)
    (Source.readString : Action MemorySource String) := by
  have h := steady.read .text
  simp only [Kind.read, bind_pure_comp, Keeps, ends_map] at h
  exact h

end MemorySource

/-- Only as many bytes are read as there are. -/
theorem SequenceAt.le_length {answer : Except Fault (List UInt16)} (h : SequenceAt bs answer k) :
    k ≤ bs.length := by
  cases h with
  | short h => exact Nat.le_refl _
  | negative hlength h => exact hlength
  | whole n hn hlength => exact hlength

/-- The sequence that was read is written by the bytes that it was read from. -/
theorem SequenceAt.writes [Sink σ] [Openness σ] [Meter σ] [Capacity σ] [LawfulSink σ]
    {us : List UInt16} (h : SequenceAt bs (.ok us) k) :
    Writes (Sink.writeUtf16 us.toArray : Action σ Unit) (bs.take k) := by
  cases h with
  | whole n hn hlength =>
    rw [← sequenceBytes_unitsOf hn hlength]
    exact writes_writeUtf16 (unitsOf ((bs.drop 4).take (2 * n))).toArray
      (length_unitsOf_le hn hlength)

/-- The string that code units denote, or the fault of a surrogate outside a pair. -/
def textOf (us : List UInt16) : Except Fault String :=
  match Text.Utf16.decode us with
  | some text => .ok text
  | none => .error (.corrupt .loneSurrogate)

theorem textOf_eq_error_iff {us : List UInt16} :
    textOf us = .error (.corrupt .loneSurrogate) ↔ ∃ i, Text.Utf16.Unpaired us i := by
  rw [← Text.Utf16.decode_eq_none_iff, textOf]
  split <;> simp [*]

/-- Units in which every surrogate is part of a pair are those of a string. -/
theorem exists_textOf {us : List UInt16} (h : ¬∃ i, Text.Utf16.Unpaired us i) :
    ∃ text, textOf us = .ok text := by
  rw [← Text.Utf16.decode_eq_none_iff] at h
  obtain ⟨text, htext⟩ := Option.ne_none_iff_exists'.1 h
  exact ⟨text, by rw [textOf, htext]⟩

theorem encode_of_textOf {us : List UInt16} {text : String} (h : textOf us = .ok text) :
    Text.Utf16.encode text = us := by
  rw [textOf] at h
  split at h
  · cases h
    exact Text.Utf16.encode_of_decode ‹_›
  · cases h

/-- Reading a string is reading a sequence, and then making a string of it. -/
theorem Source.ends_readString [Source σ] {s : σ}
    {answer : Except Fault (List UInt16)} {R : σ → Prop}
    (h : (Source.readUtf16 : Action σ (Array UInt16)).Ends s fun got t =>
      got = answer.map List.toArray ∧ R t) :
    (Source.readString : Action σ String).Ends s fun got t => got = answer.bind textOf ∧ R t := by
  rw [Source.readString, ends_bind]
  refine h.of_answer ?_
  intro t ht
  cases answer with
  | error fault => exact ⟨rfl, ht⟩
  | ok us =>
    simp only [map_ok, textOf, Except.bind]
    cases Text.Utf16.decode us with
    | none => exact ⟨rfl, ht⟩
    | some text => exact ⟨rfl, ht⟩

/-- What is read from an array as a sequence, and as a string.  The bytes that are left hold a
sequence, or a negative number in front of one, or too few bytes for it; reading tells which, and
leaves the array behind the bytes that it took to know.  A string is read where a sequence is,
unless there is a surrogate outside a pair among its units, and takes the same bytes.  What was
read is written by the bytes that it was read from. -/
theorem MemorySource.sequence_grammar [Sink σ] [Openness σ] [Meter σ] [Capacity σ] [LawfulSink σ]
    (s : MemorySource) (hs : IsOpen s) (hposition : s.position ≤ s.data.size) :
    (∃ answer k, SequenceAt (content s) answer k) ∧
    ∀ answer k, SequenceAt (content s) answer k →
      (Source.readUtf16 : Action MemorySource (Array UInt16)).Ends s (fun got t =>
        got = answer.map List.toArray ∧ t = { s with position := s.position + k }) ∧
      (Source.readString : Action MemorySource String).Ends s (fun got t =>
        t = { s with position := s.position + k } ∧
        (∀ fault, answer = .error fault → got = .error fault) ∧
        ∀ us, answer = .ok us →
          (got = .error (.corrupt .loneSurrogate) ↔ ∃ i, Text.Utf16.Unpaired us i) ∧
          ((¬∃ i, Text.Utf16.Unpaired us i) → ∃ text, got = .ok text ∧
            Writes (Sink.writeString text : Action σ Unit) ((content s).take k))) ∧
      ∀ us, answer = .ok us →
        Writes (Sink.writeUtf16 us.toArray : Action σ Unit) ((content s).take k) := by
  refine ⟨exists_sequenceAt (content s), fun answer k h => ?_⟩
  have hread := @SequenceAt.ends_readUtf16 _ _ _ (Openness.since s) _ (lawfulSource_since s) s _ h
    ⟨hs, [], Meter.refl s⟩
  refine ⟨ends_of_advanced keeps_readUtf16 hs hposition h.le_length hread, ?_,
    fun us hus => (hus ▸ h).writes⟩
  refine (ends_of_advanced keeps_readString hs hposition h.le_length
    (Source.ends_readString hread)).of_answer ?_
  rintro t rfl
  refine ⟨rfl, ?_, ?_⟩
  · rintro fault rfl
    rfl
  · rintro us rfl
    refine ⟨textOf_eq_error_iff, fun hpaired => ?_⟩
    obtain ⟨text, htext⟩ := exists_textOf hpaired
    have hwrites := h.writes (σ := σ)
    rw [← encode_of_textOf htext] at hwrites
    exact ⟨text, htext, hwrites⟩

/-- Three units, the last of them half of a pair, in the middle of an array. -/
theorem MemorySource.sequence_grammar_of_lone_surrogate :
    let s : MemorySource :=
      { data := Bytes.ofList [9, 0, 0, 0, 3, 0xD8, 0x3D, 0xDE, 0x00, 0xDC, 0x00, 7], position := 1 }
    IsOpen s ∧ s.position ≤ s.data.size ∧
      (Source.readUtf16 : Action MemorySource (Array UInt16)).Ends s (fun got t =>
        got = .ok #[0xD83D, 0xDE00, 0xDC00] ∧ t.position = 11) ∧
      (Source.readString : Action MemorySource String).Ends s (fun got t =>
        got = .error (.corrupt .loneSurrogate) ∧ t.position = 11) ∧
      (Sink.writeUtf16 #[0xD83D, 0xDE00, 0xDC00]).Ends ({} : GrowingSink) fun answer t =>
        answer = .ok () ∧
          t.bytes.list = [0, 0, 0, 3, 0xD8, 0x3D, 0xDE, 0x00, 0xDC, 0x00] := by
  intro s
  have hs : IsOpen s := rfl
  have hposition : s.position ≤ s.data.size := by decide
  have hcontent : content s = [0, 0, 0, 3, 0xD8, 0x3D, 0xDE, 0x00, 0xDC, 0x00, 7] := rfl
  have hwhole : SequenceAt (content s) (.ok [0xD83D, 0xDE00, 0xDC00]) 10 := by
    rw [hcontent]
    exact .whole 3 (by decide) (by decide)
  obtain ⟨hread, htext, hwrite⟩ := (sequence_grammar (σ := GrowingSink) s hs hposition).2 _ _ hwhole
  refine ⟨hs, hposition, ?_, ?_, ?_⟩
  · refine hread.of_answer ?_
    rintro t rfl
    exact ⟨rfl, rfl⟩
  · refine htext.mono ?_
    rintro got t ⟨rfl, -, hunits⟩
    exact ⟨(hunits _ rfl).1.2 ⟨2, by decide⟩, rfl⟩
  · refine (hwrite _ rfl {} rfl le_top).of_answer ?_
    rintro t ⟨-, hmoved, -⟩
    exact ⟨rfl, hmoved⟩

end ByteFlow
