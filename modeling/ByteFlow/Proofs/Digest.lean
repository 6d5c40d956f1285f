import ByteFlow.Digest.Algorithm
import ByteFlow.Proofs.Codec.Scalar
import Mathlib.Data.List.Basic

/-!
# Digests of whole messages

A digest is computed as the bytes of the message come.  What is kept on the way is what the pieces
that are full come to, and the bytes after them, so that in the end it is the digest of the message
that came.  Nothing is left out: the padding of a SHA-2 message ends at the end of a block, and the
chunks of a BLAKE3 message are all its bytes.

## Main definitions

* `Sha2.Progress.After`, `Blake3.Progress.After` — what is kept after some bytes.
* `Sha2.Progress.finish_feed`, `Blake3.Progress.finish_feed` — how it ends.
* `Sha2.flatMap_piece_padded`, `Blake3.flatMap_piece_append_last` — the pieces are all bytes.
* `Digest.State.finish_feed` — the same for every algorithm.
-/

namespace ByteFlow.Digest

/-! ## Pieces -/

section Pieces

variable {size i : Nat} {message : List UInt8}

/-- A piece that is full does not change when more bytes come. -/
theorem piece_append (h : (i + 1) * size ≤ message.length) (more : List UInt8) :
    piece size i (message ++ more) = piece size i message := by
  rw [Nat.add_mul, Nat.one_mul] at h
  rw [piece, piece, List.drop_append_of_le_length (by omega), List.take_append_of_le_length]
  rw [List.length_drop]
  omega

/-- The first pieces one after the other. -/
theorem flatMap_piece (size n : Nat) (message : List UInt8) :
    (List.range n).flatMap (piece size · message) = message.take (n * size) := by
  induction n with
  | zero => rw [List.range_zero, List.flatMap_nil, Nat.zero_mul, List.take_zero]
  | succ n ih =>
    rw [List.range_succ, List.flatMap_append, ih, List.flatMap_singleton, piece, Nat.add_mul,
      Nat.one_mul, List.take_add]

/-- The last piece is what stands after the full ones. -/
theorem piece_eq_drop (h : message.length ≤ (i + 1) * size) :
    piece size i message = message.drop (i * size) := by
  rw [Nat.add_mul, Nat.one_mul] at h
  rw [piece, List.take_of_length_le]
  rw [List.length_drop]
  omega

/-- What is kept of a message from byte to byte is kept from one piece of it to the next. -/
theorem foldl_kept {κ : Type} {Kept : List UInt8 → κ → Prop} {step : κ → UInt8 → κ}
    (hstep : ∀ {message k} b, Kept message k → Kept (message ++ [b]) (step k b)) {k : κ}
    (h : Kept message k) (bytes : List UInt8) : Kept (message ++ bytes) (bytes.foldl step k) := by
  induction bytes generalizing message k with
  | nil => rwa [List.append_nil]
  | cons b bytes ih =>
    have hrest := ih (hstep b h)
    rwa [List.append_assoc] at hrest

end Pieces

/-! ## SHA-2 -/

namespace Sha2

variable {W : Type} [Add W] [AndOp W] [XorOp W] [Complement W] {v : Variant W}

omit [Add W] [AndOp W] [XorOp W] [Complement W] in
/-- The message and its padding end at the end of a block. -/
theorem dvd_length_padded (hwidth : 0 < v.width) (message : List UInt8) :
    v.blockSize ∣ (message ++ padding v message.length).length := by
  have hblock : v.blockSize = 16 * v.width := rfl
  have hmessage := Nat.div_add_mod message.length v.blockSize
  have hlt := Nat.mod_lt message.length (show 0 < v.blockSize by omega)
  rw [List.length_append, padding]
  simp only [List.cons_append, List.length_cons, List.length_append, List.length_replicate,
    BigEndian.length_encode]
  -- the zeros fill this block or, when there is no room for the length, the next one
  by_cases hroom : message.length % v.blockSize + 1 + 2 * v.width ≤ v.blockSize
  · rw [Nat.mod_eq_sub_mod (by omega), Nat.mod_eq_of_lt (a := _ - _) (by omega)]
    exact ⟨message.length / v.blockSize + 1, by rw [Nat.mul_add]; omega⟩
  · rw [Nat.mod_eq_of_lt (a := _ - _) (by omega)]
    exact ⟨message.length / v.blockSize + 2, by rw [Nat.mul_add]; omega⟩

omit [Add W] [AndOp W] [XorOp W] [Complement W] in
/-- The blocks of a digest are all bytes of the message and its padding. -/
theorem flatMap_piece_padded (hwidth : 0 < v.width) (message : List UInt8) :
    let padded := message ++ padding v message.length
    (List.range (padded.length / v.blockSize)).flatMap (piece v.blockSize · padded) = padded := by
  intro padded
  rw [flatMap_piece, Nat.div_mul_cancel (dvd_length_padded hwidth message), List.take_length]

namespace Progress

/-- What is kept after some bytes: the words after the full blocks, and the bytes of the block that
is not full. -/
structure After (v : Variant W) (message : List UInt8) (p : Progress W) : Prop where
  running_eq : p.running = mixed v message
  pending_eq : p.pending.reverse = message.drop (message.length / v.blockSize * v.blockSize)
  count_eq : p.count = message.length

theorem after_start : After v [] (start v) := by
  refine ⟨?_, List.drop_nil.symm, rfl⟩
  rw [mixed, List.length_nil, Nat.zero_div]
  rfl

/-- The full blocks are mixed in as before when more bytes come. -/
theorem foldl_piece_append (message more : List UInt8) :
    (List.range (message.length / v.blockSize)).foldl
      (fun running i => v.compress running (piece v.blockSize i (message ++ more))) v.start
      = mixed v message := by
  refine List.foldl_ext _ _ _ fun running i hi => ?_
  have hend := Nat.mul_le_mul_right v.blockSize (Nat.succ_le_of_lt (List.mem_range.1 hi))
  rw [piece_append (hend.trans (Nat.div_mul_le_self _ _))]

variable {message : List UInt8} {p : Progress W}

theorem After.step (hblock : 0 < v.blockSize) (h : After v message p) (b : UInt8) :
    After v (message ++ [b]) (p.step v b) := by
  have hcount : (message ++ [b]).length = message.length + 1 := List.length_append
  have hmessage := Nat.div_add_mod' message.length v.blockSize
  have hlt := Nat.mod_lt message.length hblock
  have hpending : (message ++ [b]).drop (message.length / v.blockSize * v.blockSize)
      = (b :: p.pending).reverse := by
    rw [List.drop_append_of_le_length (Nat.div_mul_le_self _ _), List.reverse_cons, h.pending_eq]
  have hlength : (b :: p.pending).length = message.length % v.blockSize + 1 := by
    rw [← List.length_reverse, ← hpending, List.length_drop, hcount]
    omega
  rw [Progress.step, hlength]
  split
  case isTrue hfull =>
    have hblocks : (message.length + 1) / v.blockSize = message.length / v.blockSize + 1 :=
      Nat.succ_div_of_dvd ⟨message.length / v.blockSize + 1, by
        rw [Nat.mul_add, Nat.mul_comm v.blockSize]; omega⟩
    have hend : (message ++ [b]).length = (message.length / v.blockSize + 1) * v.blockSize := by
      rw [hcount, Nat.add_mul]
      omega
    refine ⟨?_, ?_, ?_⟩
    · rw [mixed, hcount, hblocks, List.range_succ, List.foldl_append, foldl_piece_append,
        h.running_eq, List.foldl_cons, List.foldl_nil, piece_eq_drop hend.le, hpending]
    · rw [hcount, hblocks, ← hend, List.drop_length]
      rfl
    · rw [hcount, h.count_eq]
  case isFalse hfull =>
    have hblocks : (message.length + 1) / v.blockSize = message.length / v.blockSize :=
      Nat.div_eq_of_lt_le (by omega) (by rw [Nat.add_mul]; omega)
    refine ⟨?_, ?_, ?_⟩
    · rw [mixed, hcount, hblocks, foldl_piece_append, h.running_eq]
    · rw [hcount, hblocks, hpending]
    · rw [hcount, h.count_eq]

theorem After.feed (hblock : 0 < v.blockSize) (h : After v message p) (bytes : List UInt8) :
    After v (message ++ bytes) (p.feed v bytes) :=
  foldl_kept (fun b h => h.step hblock b) h bytes

/-- What was kept of a message that came byte by byte gives its digest. -/
theorem finish_feed (hblock : 0 < v.blockSize) (message : List UInt8) :
    ((start v).feed v message).finish v = digest v message := by
  have hmessage : After v message ((start v).feed v message) := after_start.feed hblock message
  have hpadded := hmessage.feed hblock (padding v message.length)
  rw [finish, hmessage.count_eq, hpadded.running_eq, digest]

end Progress

end Sha2

/-! ## BLAKE3 -/

namespace Blake3

/-- The bytes of the last chunk. -/
def last (message : List UInt8) : List UInt8 := piece chunkSize (earlier message) message

/-- The words of the chunks before the last one. -/
def full (message : List UInt8) : List (List UInt32) :=
  (List.range (earlier message)).map fun i => chunkWords i false (piece chunkSize i message)

variable {message : List UInt8}

theorem earlier_mul_le (message : List UInt8) : earlier message * chunkSize ≤ message.length := by
  rw [earlier, chunkSize]
  omega

theorem last_eq_drop (message : List UInt8) :
    last message = message.drop (earlier message * chunkSize) := by
  refine piece_eq_drop ?_
  rw [earlier, chunkSize]
  omega

/-- The chunks are all bytes of the message. -/
theorem flatMap_piece_append_last (message : List UInt8) :
    (List.range (earlier message)).flatMap (piece chunkSize · message) ++ last message
      = message := by
  rw [flatMap_piece, last_eq_drop, List.take_append_drop]

/-- The chunks before the last one stay as they are when more bytes come. -/
theorem map_piece_append (message more : List UInt8) :
    ((List.range (earlier message)).map fun i =>
      chunkWords i false (piece chunkSize i (message ++ more))) = full message := by
  refine List.map_congr_left fun i hi => ?_
  have hend := Nat.mul_le_mul_right chunkSize (Nat.succ_le_of_lt (List.mem_range.1 hi))
  rw [piece_append (hend.trans (earlier_mul_le message))]

namespace Progress

/-- What is kept after some bytes: the words of the chunks before the last one, and the bytes of the
last one. -/
structure After (message : List UInt8) (p : Progress) : Prop where
  chunks_eq : p.chunks.reverse = full message
  pending_eq : p.pending.reverse = last message
  held_eq : p.held = p.pending.length

theorem after_start : After [] start := ⟨rfl, rfl, rfl⟩

variable {p : Progress}

theorem After.length_chunks (h : After message p) : p.chunks.length = earlier message := by
  rw [← List.length_reverse, h.chunks_eq, full, List.length_map, List.length_range]

theorem After.step (h : After message p) (b : UInt8) : After (message ++ [b]) (p.step b) := by
  have hle := earlier_mul_le message
  have hearlier : earlier (message ++ [b]) = message.length / chunkSize := by
    rw [earlier, List.length_append]
    rfl
  have hheld : p.held = message.length - earlier message * chunkSize := by
    rw [h.held_eq, ← List.length_reverse, h.pending_eq, last_eq_drop, List.length_drop]
  rw [Progress.step]
  split
  case isTrue hfull =>
    have hend : message.length = (earlier message + 1) * chunkSize := by
      rw [Nat.add_mul]
      omega
    have hnext : earlier (message ++ [b]) = earlier message + 1 := by
      rw [hearlier, hend, Nat.mul_div_cancel _ (by decide)]
    refine ⟨?_, ?_, rfl⟩
    · rw [full, hnext, List.range_succ, List.map_append, map_piece_append, List.map_singleton,
        piece_append hend.ge, List.reverse_cons, h.chunks_eq, h.length_chunks, h.pending_eq, last]
    · rw [last_eq_drop, hnext, ← hend, List.drop_left]
      rfl
  case isFalse hfull =>
    have hsame : earlier (message ++ [b]) = earlier message := by
      rw [hearlier]
      rw [hheld] at hfull
      rw [earlier, chunkSize] at *
      omega
    refine ⟨?_, ?_, congrArg (· + 1) h.held_eq⟩
    · rw [full, hsame, map_piece_append, h.chunks_eq]
    · rw [List.reverse_cons, h.pending_eq, last_eq_drop, last_eq_drop, hsame,
        List.drop_append_of_le_length hle]

theorem After.feed (h : After message p) (bytes : List UInt8) :
    After (message ++ bytes) (p.feed bytes) :=
  foldl_kept (fun b h => h.step b) h bytes

/-- What was kept of a message that came byte by byte gives its digest. -/
theorem finish_feed (message : List UInt8) : (start.feed message).finish = digest message := by
  have h : After message (start.feed message) := after_start.feed message
  rw [finish, digest]
  congr 1
  split
  case h_1 hchunks =>
    have hzero : earlier message = 0 := by rw [← h.length_chunks, hchunks]; rfl
    rw [if_pos hzero, h.pending_eq, last, hzero]
  case h_2 hchunks =>
    have hmore : earlier message ≠ 0 := by
      rw [← h.length_chunks]
      exact fun hzero => hchunks (List.length_eq_zero_iff.1 hzero)
    rw [if_neg hmore, h.length_chunks]
    refine congrArg (rootWords _) ?_
    rw [List.reverse_cons, h.chunks_eq, h.pending_eq, List.range_succ, List.map_append,
      List.map_singleton]
    rfl

end Progress

end Blake3

/-! ## The algorithms under one roof -/

/-- The digest of bytes that came is that of the message which they are. -/
theorem State.finish_feed (a : Algorithm) (message : List UInt8) :
    ((start a).feed message).finish = digest a message := by
  cases a with
  | sha256 => exact Sha2.Progress.finish_feed (by decide) message
  | sha512 => exact Sha2.Progress.finish_feed (by decide) message
  | blake3 => exact Blake3.Progress.finish_feed message

set_option maxRecDepth 20000 in
/-- The digests of the three letters "abc" begin as the publications of the algorithms say. -/
example :
    let start (a : Algorithm) : List UInt8 := (digest a [0x61, 0x62, 0x63]).take 4
    start .sha256 = [0xba, 0x78, 0x16, 0xbf] ∧ start .sha512 = [0xdd, 0xaf, 0x35, 0xa1] ∧
      start .blake3 = [0x64, 0x37, 0xb3, 0xac] := by
  decide +kernel

end ByteFlow.Digest
