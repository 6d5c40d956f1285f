import ByteFlow.BigEndian
import ByteFlow.Digest.Sha2

/-!
# The BLAKE3 hash function

The message is cut into chunks of 1024 bytes and each chunk is compressed, block by
block, to eight words.  The chunks are the leaves of a binary tree whose inner
nodes compress the words of their two children; the digest is the root.

The last compression is marked as the root, so a chunk cannot be finished before
it is known whether another one follows.  A full chunk therefore waits for the
next byte.

## Main definitions

* `Blake3.compress` — the compression of one block.
* `Blake3.chunkWords`, `Blake3.parentWords` — the leaves and the inner nodes.
* `Blake3.Progress` — what is known of a message whose bytes are still coming, with
  `Blake3.Progress.feed` and `Blake3.Progress.finish`.
* `Blake3.digest` — the digest of a message that is there as a whole.
-/

namespace ByteFlow.Digest.Blake3

/-! ## The compression function -/

/-- The words a compression starts from, the same as for SHA-256. -/
def start : List UInt32 := Sha2.squareRoots.map Sha2.upperHalf

/-- The order in which the message words enter the next round. -/
def permutation : List Nat := [2, 6, 3, 10, 7, 0, 4, 13, 1, 11, 12, 5, 9, 14, 15, 8]

/-- The four places that each half-column mixing works on: columns, then
diagonals. -/
def mixings : List (Nat × Nat × Nat × Nat) :=
  [(0, 4, 8, 12), (1, 5, 9, 13), (2, 6, 10, 14), (3, 7, 11, 15),
    (0, 5, 10, 15), (1, 6, 11, 12), (2, 7, 8, 13), (3, 4, 9, 14)]

/-- Mix two message words into four places of the state. -/
def mix (state : Array UInt32) (place : Nat × Nat × Nat × Nat) (x y : UInt32) :
    Array UInt32 :=
  let (ia, ib, ic, id) := place
  let a := state[ia]! + state[ib]! + x
  let d := Sha2.rotate32 (state[id]! ^^^ a) 16
  let c := state[ic]! + d
  let b := Sha2.rotate32 (state[ib]! ^^^ c) 12
  let a := a + b + y
  let d := Sha2.rotate32 (d ^^^ a) 8
  let c := c + d
  let b := Sha2.rotate32 (b ^^^ c) 7
  (((state.set! ia a).set! ib b).set! ic c).set! id d

/-- The message words two by two, one pair for each mixing. -/
def pairs : List UInt32 → List (UInt32 × UInt32)
  | x :: y :: rest => (x, y) :: pairs rest
  | _ => []

/-- Rounds of mixing; the message words are permuted between them. -/
def rounds : (n : Nat) → (state : Array UInt32) → (message : List UInt32) → Array UInt32
  | 0, state, _ => state
  | n + 1, state, message =>
    let mixed := (mixings.zip (pairs message)).foldl
      (fun state (place, x, y) => mix state place x y) state
    rounds n mixed (permutation.map fun i => message.getD i 0)

/-- What a compression knows about the place of its block. -/
structure Flags where
  chunkStart : Bool := false
  chunkEnd : Bool := false
  parent : Bool := false
  root : Bool := false

/-- The flags as a word. -/
def Flags.word (f : Flags) : UInt32 :=
  (if f.chunkStart then 1 else 0) + (if f.chunkEnd then 2 else 0) + (if f.parent then 4 else 0)
    + (if f.root then 8 else 0)

/-- Compress sixteen message words into eight running words.  `counter` is the number
of the chunk, and `size` the number of message bytes in the block. -/
def compress (running message : List UInt32) (counter size : Nat) (flags : Flags) :
    List UInt32 :=
  let state := running ++ start.take 4
    ++ [counter.toUInt32, (counter >>> 32).toUInt32, size.toUInt32, flags.word]
  let mixed := (rounds 7 state.toArray message).toList
  (mixed.take 8).zipWith (· ^^^ ·) (mixed.drop 8)

/-! ## The tree -/

/-- `n` words, little-endian; bytes that are missing count as zero. -/
def words : (n : Nat) → List UInt8 → List UInt32
  | 0, _ => []
  | n + 1, bytes =>
    (BigEndian.decode (bytes.take 4).reverse).toUInt32 :: words n (bytes.drop 4)

/-- Compress the blocks of a chunk, of which there are at most `n + 1`. -/
def blocks (counter : Nat) (root : Bool) :
    (n : Nat) → (first : Bool) → (running : List UInt32) → List UInt8 → List UInt32
  | 0, first, running, bytes =>
    compress running (words 16 bytes) counter bytes.length
      { chunkStart := first, chunkEnd := true, root := root }
  | n + 1, first, running, bytes =>
    if bytes.length ≤ 64 then
      compress running (words 16 bytes) counter bytes.length
        { chunkStart := first, chunkEnd := true, root := root }
    else
      let running := compress running (words 16 (bytes.take 64)) counter 64
        { chunkStart := first }
      blocks counter root n false running (bytes.drop 64)

/-- Bytes in a chunk that is not the last one. -/
def chunkSize : Nat := 1024

/-- The eight words of a chunk. -/
def chunkWords (counter : Nat) (root : Bool) (bytes : List UInt8) : List UInt32 :=
  blocks counter root (chunkSize / 64 - 1) true start bytes

/-- The eight words of an inner node. -/
def parentWords (root : Bool) (left right : List UInt32) : List UInt32 :=
  compress start (left ++ right) 0 64 { parent := true, root := root }

/-- One level of the tree: neighbours are joined, and one that is left over moves up
as it is. -/
def joinLevel : List (List UInt32) → List (List UInt32)
  | left :: right :: rest => parentWords false left right :: joinLevel rest
  | rest => rest

/-- The root over nodes from left to right, in at most `n` levels. -/
def rootWords : (n : Nat) → List (List UInt32) → List UInt32
  | _, [left, right] => parentWords true left right
  | n + 1, nodes => rootWords n (joinLevel nodes)
  | 0, _ => []

/-! ## A whole message -/

/-- The digest as it is written out. -/
def write (root : List UInt32) : List UInt8 :=
  root.flatMap fun w => (BigEndian.encode 4 w.toNat).reverse

/-- How many chunks stand before the last one.  The last chunk is not empty, unless the message
is. -/
def earlier (message : List UInt8) : Nat := (message.length - 1) / chunkSize

/-- The digest of a message: one chunk is the root by itself, and more of them are the leaves of
the tree. -/
def digest (message : List UInt8) : List UInt8 :=
  let chunk (root : Bool) (i : Nat) := chunkWords i root (piece chunkSize i message)
  write <|
    if earlier message = 0 then chunk true 0
    else rootWords (earlier message + 1) ((List.range (earlier message + 1)).map (chunk false))

/-! ## Bytes as they come -/

/-- What is known of a message whose bytes are still coming. -/
structure Progress where
  /-- The words of the chunks that are finished, the latest one first. -/
  chunks : List (List UInt32)
  /-- The bytes of the chunk that is not finished, the latest one first. -/
  pending : List UInt8
  /-- How many bytes `pending` holds. -/
  held : Nat

namespace Progress

/-- Before the first byte. -/
def start : Progress := ⟨[], [], 0⟩

/-- One byte more.  It finishes a full chunk, which is now known not to be the last
one. -/
def step (p : Progress) (b : UInt8) : Progress :=
  if p.held = chunkSize then
    ⟨chunkWords p.chunks.length false p.pending.reverse :: p.chunks, [b], 1⟩
  else
    ⟨p.chunks, b :: p.pending, p.held + 1⟩

/-- More bytes. -/
def feed (p : Progress) (bytes : List UInt8) : Progress := bytes.foldl step p

/-- The digest of all bytes so far. -/
def finish (p : Progress) : List UInt8 :=
  let root :=
    match p.chunks with
    | [] => chunkWords 0 true p.pending.reverse
    | chunks =>
      let last := chunkWords chunks.length false p.pending.reverse
      rootWords (chunks.length + 1) (last :: chunks).reverse
  write root

end Progress

end ByteFlow.Digest.Blake3
