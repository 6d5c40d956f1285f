import ByteFlow.Digest.Blake3
import ByteFlow.Digest.Sha2
import ByteFlow.Fault

/-!
# Digest algorithms

The algorithms under one roof.  Each has a number that never changes, so that the
number can be kept beside a digest and be looked up again.

## Main definitions

* `Algorithm` — the algorithms, with `Algorithm.id` and `Algorithm.ofId`.
* `Digest.State` — a digest whose bytes are still coming.
* `Digest.State.feed`, `Digest.State.finish` — more bytes, and the digest.
* `Digest.digest` — the digest of a message that is there as a whole.
-/

namespace ByteFlow.Digest

/-- A digest algorithm. -/
inductive Algorithm where
  | sha256
  | sha512
  | blake3
  deriving DecidableEq, Repr, Inhabited

namespace Algorithm

/-- Every algorithm, once. -/
def all : List Algorithm := [sha256, sha512, blake3]

/-- The algorithm's number. -/
def id : Algorithm → UInt16
  | sha256 => 1
  | sha512 => 2
  | blake3 => 3

/-- The algorithm with the given number. -/
def ofId (n : UInt16) : Except Fault Algorithm :=
  match all.find? fun a => a.id == n with
  | some a => .ok a
  | none => .error (.corrupt (.unknownAlgorithm n))

/-- The algorithm's name in running text. -/
def label : Algorithm → String
  | sha256 => "sha256"
  | sha512 => "sha512"
  | blake3 => "blake3"

/-- The algorithm's name in traces. -/
def name : Algorithm → String
  | sha256 => "Sha256"
  | sha512 => "Sha512"
  | blake3 => "Blake3"

/-- How many bytes a digest has. -/
def size : Algorithm → Nat
  | sha256 => 32
  | sha512 => 64
  | blake3 => 32

end Algorithm

/-- A digest whose bytes are still coming. -/
inductive State where
  | sha256 (progress : Sha2.Progress UInt32)
  | sha512 (progress : Sha2.Progress UInt64)
  | blake3 (progress : Blake3.Progress)

namespace State

/-- Before the first byte. -/
def start : Algorithm → State
  | .sha256 => sha256 (.start Sha2.sha256)
  | .sha512 => sha512 (.start Sha2.sha512)
  | .blake3 => blake3 .start

/-- More bytes. -/
def feed (bytes : List UInt8) : State → State
  | sha256 p => sha256 (p.feed Sha2.sha256 bytes)
  | sha512 p => sha512 (p.feed Sha2.sha512 bytes)
  | blake3 p => blake3 (p.feed bytes)

/-- The digest of all bytes so far. -/
def finish : State → List UInt8
  | sha256 p => p.finish Sha2.sha256
  | sha512 p => p.finish Sha2.sha512
  | blake3 p => p.finish

/-- Bytes that come one after the other are hashed as if they had come together. -/
theorem feed_append (first second : List UInt8) (s : State) :
    s.feed (first ++ second) = (s.feed first).feed second := by
  cases s <;> simp [feed, Sha2.Progress.feed, Blake3.Progress.feed]

end State

/-- The digest of a message. -/
def digest : Algorithm → List UInt8 → List UInt8
  | .sha256 => Sha2.digest Sha2.sha256
  | .sha512 => Sha2.digest Sha2.sha512
  | .blake3 => Blake3.digest

end ByteFlow.Digest
