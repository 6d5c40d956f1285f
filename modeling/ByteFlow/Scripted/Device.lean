import ByteFlow.Endpoint.Device

/-!
# Devices that follow a script

A scripted device does at each call what the next entry of its script says: it
gives or takes a few bytes, or fails.  It shows what a stream makes of a device
that stalls, breaks off or is interrupted.

## Main definitions

* `ScriptedInput` — gives the bytes of its script in the pieces laid down there.
* `ScriptedOutput` — takes bytes under the limits of its script, holds them back until
  it is flushed, and may have room for only so many.
-/

namespace ByteFlow

/-! ## Input -/

/-- What a scripted input does at a call. -/
inductive InputEntry where
  /-- Give these bytes, over as many calls as it takes. -/
  | data (bytes : Bytes)
  /-- Give nothing. -/
  | pause
  | fault (error : IoError)
  deriving DecidableEq

/-- An input that follows a script. -/
structure ScriptedInput where
  script : List InputEntry
  deriving DecidableEq

namespace ScriptedInput

/-- One call.  Bytes that do not fit into the room stay for the next call. -/
def read (room : Nat) (d : ScriptedInput) : Except IoError Bytes × ScriptedInput :=
  match d.script with
  | [] => (.ok ByteArray.empty, ⟨[]⟩)
  | .pause :: rest => (.ok ByteArray.empty, ⟨rest⟩)
  | .fault e :: rest => (.error e, ⟨rest⟩)
  | .data bytes :: rest =>
    if bytes.size ≤ room then (.ok bytes, ⟨rest⟩)
    else (.ok (bytes.extract 0 room), ⟨.data (bytes.extract room bytes.size) :: rest⟩)

/-- How many bytes the script still holds. -/
def bytesLeft (d : ScriptedInput) : Nat :=
  d.script.foldr (fun entry left =>
    match entry with
    | .data bytes => bytes.size + left
    | _ => left) 0

instance : InputDevice ScriptedInput where
  read := read
  patience := fun d => d.script.length
  read_size_le := by
    intro room d d' b h
    rcases d with ⟨_ | ⟨entry, rest⟩⟩
    · simp only [read, Prod.mk.injEq, Except.ok.injEq] at h
      simp [← h.1]
    · cases entry with
      | pause =>
        simp only [read, Prod.mk.injEq, Except.ok.injEq] at h
        simp [← h.1]
      | fault e => simp [read] at h
      | data bytes =>
        simp only [read] at h
        split at h
        · simp only [Prod.mk.injEq, Except.ok.injEq] at h
          rw [← h.1]
          assumption
        · simp only [Prod.mk.injEq, Except.ok.injEq] at h
          rw [← h.1, ByteArray.size_extract]
          omega
  patience_read_le := by
    intro room d
    rcases d with ⟨_ | ⟨entry, rest⟩⟩
    · simp [read]
    · cases entry with
      | pause => simp [read]
      | fault e => simp [read]
      | data bytes =>
        simp only [read]
        split <;> simp
  patience_interrupted := by
    intro room d d' e h _
    rcases d with ⟨_ | ⟨entry, rest⟩⟩
    · simp [read] at h
    · cases entry with
      | pause => simp [read] at h
      | fault e =>
        simp only [read, Prod.mk.injEq] at h
        simp [← h.2]
      | data bytes =>
        simp only [read] at h
        split at h <;> simp at h

instance : Supply ScriptedInput where
  supply := bytesLeft

end ScriptedInput

/-! ## Output -/

/-- What a scripted output does at a call. -/
inductive OutputEntry where
  /-- Take at most so many bytes. -/
  | limit (count : Nat)
  | fault (error : IoError)
  deriving DecidableEq

/-- An output that follows a script. -/
structure ScriptedOutput where
  /-- How many bytes it takes in all; no number means any number. -/
  capacity : Option Nat
  /-- What it does at the next calls; afterwards it takes what it is offered. -/
  script : List OutputEntry
  /-- What it does at the next flushes; afterwards they succeed. -/
  flushScript : List (Option IoError)
  /-- Bytes that are held back. -/
  pending : Bytes
  /-- Bytes that were passed on. -/
  flushed : Bytes
  deriving DecidableEq

namespace ScriptedOutput

/-- How many bytes there is room for. -/
def room (d : ScriptedOutput) (offered : Nat) : Nat :=
  match d.capacity with
  | none => offered
  | some capacity => min offered (capacity - (d.pending.size + d.flushed.size))

/-- Take at most `most` of the bytes, as there is room for them. -/
def accept (offered : Bytes) (most : Nat) (d : ScriptedOutput) : Nat × ScriptedOutput :=
  let count := d.room (min offered.size most)
  (count, { d with pending := d.pending ++ offered.extract 0 count })

/-- One call. -/
def write (offered : Bytes) (d : ScriptedOutput) : Except IoError Nat × ScriptedOutput :=
  match d.script with
  | [] =>
    let (count, d) := d.accept offered offered.size
    (.ok count, d)
  | .limit most :: rest =>
    let (count, d) := ({ d with script := rest } : ScriptedOutput).accept offered most
    (.ok count, d)
  | .fault e :: rest => (.error e, { d with script := rest })

/-- Pass on what is held back, unless the script says that this fails. -/
def flush (d : ScriptedOutput) : Except IoError Unit × ScriptedOutput :=
  match d.flushScript with
  | some e :: rest => (.error e, { d with flushScript := rest })
  | none :: rest =>
    (.ok (), { d with
      flushScript := rest, pending := ByteArray.empty, flushed := d.flushed ++ d.pending })
  | [] => (.ok (), { d with pending := ByteArray.empty, flushed := d.flushed ++ d.pending })

theorem room_le (d : ScriptedOutput) (offered : Nat) : d.room offered ≤ offered := by
  rw [room]
  split <;> omega

instance : OutputDevice ScriptedOutput where
  write := write
  flush := flush
  patience := fun d => d.script.length
  write_le := by
    intro offered d d' n h
    rw [write] at h
    split at h
    · simp only [accept, Prod.mk.injEq, Except.ok.injEq] at h
      rw [← h.1]
      exact Nat.le_trans (room_le ..) (Nat.min_le_left ..)
    · simp only [accept, Prod.mk.injEq, Except.ok.injEq] at h
      rw [← h.1]
      exact Nat.le_trans (room_le ..) (Nat.min_le_left ..)
    · simp at h
  patience_write_le := by
    intro offered d
    rw [write]
    split <;> simp [accept, *]
  patience_interrupted := by
    intro offered d d' e h _
    rw [write] at h
    split at h
    · simp at h
    · simp at h
    · rename_i hscript
      simp only [Prod.mk.injEq] at h
      simp [← h.2, hscript]

end ScriptedOutput

end ByteFlow
