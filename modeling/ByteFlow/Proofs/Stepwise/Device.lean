import ByteFlow.Proofs.Stepwise.Basic
import ByteFlow.Scripted.Device

/-!
# Devices, byte by byte

A read from a device that has room for many bytes may give any number of them, and it may
fail.  For the source over the device to read byte by byte, the device must not mind: what
it gives at once it has to give in pieces as well.  Devices that follow a script are like
that.

The loop around the reads counts its turns, so that it ends.  The count is large enough for
every run, so it does not show, and the loop has an equation without it.

## Main definitions

* `DivisibleDevice` — devices that give in pieces what they would give at once.
* `InputDevice.Heedful` — what the loop makes of an end and of an error.
* `InputDevice.ends_readLoop` — one turn of the loop, and the loop again.
* `InputDevice.stepwise_readLoop` — the loop reads byte by byte.
* `CleanInput` — scripted inputs with any errors but that of a write.
-/

namespace ByteFlow

open ByteFlow.Action

/-- A device that gives in two reads what it would give in one, and that never fails as a
write does. -/
class DivisibleDevice (D : Type) [InputDevice D] : Prop where
  kind_ne : ∀ {room : Nat} {d d' : D} {e : IoError},
    InputDevice.read room d = (.error e, d') → e.kind ≠ .writeZero
  read_error : ∀ {n : Nat} {d d' : D} {e : IoError},
    InputDevice.read (n + 1) d = (.error e, d') → InputDevice.read 1 d = (.error e, d')
  read_nothing : ∀ {n : Nat} {d d' : D} {given : Bytes},
    InputDevice.read (n + 1) d = (.ok given, d') → given.list = [] →
      InputDevice.read 1 d = (.ok given, d')
  read_cons : ∀ {n : Nat} {d d' : D} {given : Bytes} {b : UInt8} {bs : List UInt8},
    InputDevice.read (n + 1) d = (.ok given, d') → given.list = b :: bs →
      ∃ first d₁, InputDevice.read 1 d = (.ok first, d₁) ∧ first.list = [b] ∧
        (bs = [] ∧ d₁ = d' ∨
          bs ≠ [] ∧ ∃ more, InputDevice.read n d₁ = (.ok more, d') ∧ more.list = bs)

namespace InputDevice

variable {δ : Type}

/-! ## The loop without its count -/

section Loop

variable {ended : Except Fault Unit} {atEnd : Action (δ × Region) (Option Unit)}
  {onError : IoError → Action (δ × Region) (Option Unit)}

/-- The loop answers `ended` at the end, and to an error of a read what a bulk operation
answers that answers `ended` at the end. -/
structure Heedful (ended : Except Fault Unit) (atEnd : Action (δ × Region) (Option Unit))
    (onError : IoError → Action (δ × Region) (Option Unit)) : Prop where
  ends_atEnd : ∀ p Q, atEnd.Ends p Q ↔ Q (ended.map some) p
  ends_onError : ∀ e : IoError, e.kind ≠ .writeZero → ∀ p Q,
    (onError e).Ends p Q ↔ Q ((atFault ended (.ofIo e)).map some) p

theorem heedful_readAll : Heedful (δ := δ) (.error .endOfStream) (fail .endOfStream)
    fun e => fail (.ofIo e) where
  ends_atEnd _ _ := Iff.rfl
  ends_onError e _ p Q := by
    have hfault : atFault (.error .endOfStream) (.ofIo e) = .error (.ofIo e) := by
      cases Fault.ofIo e <;> rfl
    rw [hfault]
    exact Iff.rfl

theorem heedful_readSome : Heedful (δ := δ) (.ok ()) (pure (some ()))
    fun e => if e.kind = .unexpectedEof then pure (some ()) else fail (.ofIo e) where
  ends_atEnd _ _ := Iff.rfl
  ends_onError e he p Q := by
    by_cases hend : e.kind = .unexpectedEof
    · rw [if_pos hend, Fault.ofIo, hend]
      exact Iff.rfl
    · have hfault : Fault.ofIo e ≠ .endOfStream := fun h =>
        he ((Fault.ofIo_eq_endOfStream h).resolve_left hend)
      rw [if_neg hend, atFault_of_ne hfault]
      exact Iff.rfl

variable [InputDevice δ]

/-- One turn of the loop. -/
def readTurn (atEnd : Action (δ × Region) (Option Unit))
    (onError : IoError → Action (δ × Region) (Option Unit)) :
    Action (δ × Region) (Option Unit) := do
  if ← gets fun (_, region) => region.hasRemaining then
    match ← readOnce with
    | .ok 0 => atEnd
    | .ok _ => pure none
    | .error e => if e.kind = .interrupted then pure none else onError e
  else
    pure (some ())

theorem readLoop_eq : readLoop atEnd onError = (do
    let turns ← gets fun (device, region) => region.remaining + patience device
    repeatUntil (turns + 1) (readTurn atEnd onError) (pure ())) :=
  rfl

theorem ends_readTurn [DivisibleDevice δ] (h : Heedful ended atEnd onError) (d : δ) {r : Region}
    (hr : r.Writable) (Q : Except Fault (Option Unit) → δ × Region → Prop) :
    (readTurn atEnd onError).Ends (d, r) Q ↔
      if r.remaining = 0 then Q (.ok (some ())) (d, r)
      else
        match read r.remaining d with
        | (.ok given, d') =>
          if given.list = [] then Q (ended.map some) (d', r)
          else Q (.ok none) (d', r.receive given.list)
        | (.error e, d') =>
          if e.kind = .interrupted then Q (.ok none) (d', r)
          else Q ((atFault ended (.ofIo e)).map some) (d', r) := by
  rw [readTurn, ends_gets_bind]
  by_cases hroom : r.remaining = 0
  · rw [if_pos hroom, if_neg (by simpa using hroom)]
    exact Iff.rfl
  rw [if_neg hroom, if_pos (by simpa using hroom), ends_bind, ends_readOnce d hr]
  rcases hread : read r.remaining d with ⟨e | given, d'⟩
  · by_cases hkind : e.kind = .interrupted
    · simp only [hkind, if_true]
      exact Iff.rfl
    · simp only [hkind, if_false]
      exact h.ends_onError e (DivisibleDevice.kind_ne hread) _ Q
  · dsimp only
    rw [← Bytes.length_list]
    cases hlist : given.list with
    | nil =>
      rw [if_pos rfl, Region.receive_nil]
      exact h.ends_atEnd _ Q
    | cons b bs =>
      rw [if_neg (List.cons_ne_nil b bs)]
      exact Iff.rfl

/-- A read that gives something leaves fewer turns to take. -/
theorem turns_read_lt {d d' : δ} {r : Region} {given : Bytes}
    (hread : read r.remaining d = (.ok given, d')) (hgiven : given.list ≠ []) :
    (r.receive given.list).remaining + patience d' < r.remaining + patience d := by
  have hpatience : patience d' ≤ patience d := by
    have hle := patience_read_le r.remaining d
    rwa [hread] at hle
  have hsize : given.list.length ≤ r.remaining := read_size_le hread
  have hpos := List.length_pos_iff.mpr hgiven
  rw [Region.remaining_receive]
  omega

variable [DivisibleDevice δ]

/-- Turns that are not needed do not show. -/
theorem ends_turns (h : Heedful ended atEnd onError) {n m : Nat} {d : δ} {r : Region}
    (hr : r.Writable) (hn : r.remaining + patience d < n) (hm : r.remaining + patience d < m)
    (Q : Except Fault Unit → δ × Region → Prop) :
    (repeatUntil n (readTurn atEnd onError) (pure ())).Ends (d, r) Q ↔
      (repeatUntil m (readTurn atEnd onError) (pure ())).Ends (d, r) Q := by
  induction n generalizing m d r with
  | zero => omega
  | succ n ih =>
    obtain ⟨m, rfl⟩ := Nat.exists_eq_succ_of_ne_zero (Nat.ne_zero_of_lt hm)
    rw [ends_repeatUntil_succ, ends_repeatUntil_succ, ends_readTurn h d hr, ends_readTurn h d hr]
    split
    · exact Iff.rfl
    rcases hread : read r.remaining d with ⟨e | given, d'⟩
    · dsimp only
      split
      · have hpatience := patience_interrupted hread ‹_›
        exact ih hr (by omega) (by omega)
      · cases atFault ended (.ofIo e) <;> exact Iff.rfl
    · dsimp only
      split
      · cases ended <;> exact Iff.rfl
      · have hless := turns_read_lt hread ‹_›
        exact ih (hr.receive (read_size_le hread)) (Nat.lt_of_lt_of_le hless (by omega))
          (Nat.lt_of_lt_of_le hless (by omega))

/-- The loop reads once, and is done or starts again. -/
theorem ends_readLoop (h : Heedful ended atEnd onError) (d : δ) {r : Region} (hr : r.Writable)
    (Q : Except Fault Unit → δ × Region → Prop) :
    (readLoop atEnd onError).Ends (d, r) Q ↔
      if r.remaining = 0 then Q (.ok ()) (d, r)
      else
        match read r.remaining d with
        | (.ok given, d') =>
          if given.list = [] then Q ended (d', r)
          else (readLoop atEnd onError).Ends (d', r.receive given.list) Q
        | (.error e, d') =>
          if e.kind = .interrupted then (readLoop atEnd onError).Ends (d', r) Q
          else Q (atFault ended (.ofIo e)) (d', r) := by
  simp only [readLoop_eq, ends_gets_bind]
  rw [ends_repeatUntil_succ, ends_readTurn h d hr]
  split
  · exact Iff.rfl
  rcases hread : read r.remaining d with ⟨e | given, d'⟩
  · dsimp only
    split
    · have hpatience := patience_interrupted hread ‹_›
      exact ends_turns h hr (by omega) (by omega) Q
    · cases atFault ended (.ofIo e) <;> exact Iff.rfl
  · dsimp only
    split
    · cases ended <;> exact Iff.rfl
    · have hless := turns_read_lt hread ‹_›
      exact ends_turns h (hr.receive (read_size_le hread)) hless (Nat.lt_succ_self _) Q

end Loop

/-! ## One byte from a device -/

variable [InputDevice δ]

/-- One byte, read as a region of one byte. -/
def next : Action δ UInt8 := do
  let (_, region) ← alongside (Region.allocate 1 .indirect) readAll
  pure (region.bytes.get! 0)

variable [DivisibleDevice δ]

theorem ends_next (d : δ) (Q : Except Fault UInt8 → δ → Prop) :
    next.Ends d Q ↔
      match read 1 d with
      | (.ok given, d') =>
        match given.list with
        | [] => Q (.error .endOfStream) d'
        | b :: _ => Q (.ok b) d'
      | (.error e, d') =>
        if e.kind = .interrupted then next.Ends d' Q else Q (.error (.ofIo e)) d' := by
  have hwritable := Region.writable_allocate 1 .indirect
  have hroom : (Region.allocate 1 .indirect).remaining ≠ 0 := nofun
  simp only [next, ends_bind, ends_alongside]
  rw [readAll, ends_readLoop heedful_readAll d hwritable, if_neg hroom]
  change (match read 1 d with | (.ok given, d') => _ | (.error e, d') => _) ↔ _
  rcases hread : read 1 d with ⟨e | given, d'⟩
  · dsimp only
    split
    · exact Iff.rfl
    · cases Fault.ofIo e <;> exact Iff.rfl
  · have hsize : given.list.length ≤ 1 := read_size_le hread
    dsimp only
    cases hlist : given.list with
    | nil => exact Iff.rfl
    | cons b bs =>
      rw [hlist, List.length_cons] at hsize
      obtain rfl : bs = [] := List.eq_nil_of_length_eq_zero (by omega)
      have hreceived : ((Region.allocate 1 .indirect).receive [b]).Writable :=
        hwritable.receive hsize
      have hfull : ((Region.allocate 1 .indirect).receive [b]).remaining = 0 := rfl
      rw [if_neg (List.cons_ne_nil b []), ends_readLoop heedful_readAll d' hreceived, if_pos hfull]
      exact Iff.rfl

variable {ended : Except Fault Unit} {atEnd : Action (δ × Region) (Option Unit)}
  {onError : IoError → Action (δ × Region) (Option Unit)}

/-- After a read that gave something, the loop stands where it would stand after a read of one
byte, or after the read that follows that. -/
theorem ends_readLoop_received (h : Heedful ended atEnd onError) {d d' : δ} {r : Region}
    (hr : r.Writable) (hroom : r.remaining ≠ 0) {given : Bytes} {b : UInt8} {bs : List UInt8}
    (hread : read r.remaining d = (.ok given, d')) (hlist : given.list = b :: bs) :
    ∃ first d₁, read 1 d = (.ok first, d₁) ∧ first.list = [b] ∧ ∀ Q,
      (readLoop atEnd onError).Ends (d', r.receive (b :: bs)) Q ↔
        if (r.receive [b]).remaining = 0 then Q (.ok ()) (d₁, r.receive [b])
        else (readLoop atEnd onError).Ends (d₁, r.receive [b]) Q := by
  obtain ⟨k, hk⟩ := Nat.exists_eq_succ_of_ne_zero hroom
  rw [hk] at hread
  obtain ⟨first, d₁, hfirst, hone, hmore⟩ := DivisibleDevice.read_cons hread hlist
  refine ⟨first, d₁, hfirst, hone, fun Q => ?_⟩
  have hwritable := hr.receive_one hroom b
  rcases hmore with ⟨rfl, rfl⟩ | ⟨hbs, more, hmore, rfl⟩
  · by_cases hfull : (r.receive [b]).remaining = 0
    · rw [ends_readLoop h d₁ hwritable, if_pos hfull, if_pos hfull]
    · rw [if_neg hfull]
  · have hcount : (r.receive [b]).remaining = k := by
      rw [Region.remaining_receive_one, hk, Nat.succ_sub_one]
    have hmost : more.list.length ≤ k := read_size_le hmore
    have hpos := List.length_pos_iff.mpr hbs
    have hfree : (r.receive [b]).remaining ≠ 0 := by omega
    rw [if_neg hfree, ends_readLoop h d₁ hwritable, if_neg hfree, hcount, hmore]
    dsimp only
    rw [if_neg hbs, Region.receive_receive hr.toWellFormed]
    exact Iff.rfl

/-- The loop reads byte by byte. -/
theorem stepwise_readLoop (h : Heedful ended atEnd onError) :
    Stepwise ended next (readLoop atEnd onError) := by
  intro d r hr hroom
  -- an interruption leads to the same place with less patience
  induction hn : patience d using Nat.strongRecOn generalizing d with
  | ind n ih =>
  intro Q
  obtain ⟨k, hk⟩ := Nat.exists_eq_succ_of_ne_zero hroom
  rw [ends_readLoop h d hr, if_neg hroom, ends_next]
  rcases hread : read r.remaining d with ⟨e | given, d'⟩
  · rw [DivisibleDevice.read_error (hk ▸ hread)]
    by_cases hkind : e.kind = .interrupted
    · simp only [hkind, if_true]
      exact ih _ (hn ▸ patience_interrupted hread hkind) d' rfl Q
    · simp only [hkind, if_false]
  · dsimp only
    cases hlist : given.list with
    | nil =>
      rw [if_pos rfl, DivisibleDevice.read_nothing (hk ▸ hread) hlist]
      dsimp only
      rw [hlist]
      exact Iff.rfl
    | cons b bs =>
      obtain ⟨first, d₁, hfirst, hone, hgoes⟩ := ends_readLoop_received h hr hroom hread hlist
      rw [if_neg (List.cons_ne_nil b bs), hgoes, hfirst]
      dsimp only
      rw [hone]

end InputDevice

namespace DeviceSource

variable {D : Type} [InputDevice D]

/-- An open source reads its byte from the device. -/
theorem ends_next (d : D) (Q : Except Fault UInt8 → DeviceSource D → Prop) :
    next.Ends ⟨d, false⟩ Q ↔ InputDevice.next.Ends d fun answer d' => Q answer ⟨d', false⟩ := by
  simp only [next, InputDevice.next, ends_bind, ends_alongside]
  exact ends_congr fun answer p => by cases answer <;> exact Iff.rfl

theorem stepwise_whenOpen {ended : Except Fault Unit} {bulk : Action (D × Region) Unit}
    (h : Stepwise ended InputDevice.next bulk) : Stepwise ended next (whenOpen bulk) := by
  intro s r hr hroom
  rcases s with ⟨d, closed⟩
  cases closed with
  | true => exact .of_refused .closed nofun (fun Q => Iff.rfl) (fun Q => Iff.rfl)
  | false =>
    exact h.lift (fun d => (⟨d, false⟩ : DeviceSource D)) ends_next (fun _ _ _ => Iff.rfl) d r hr
      hroom

instance [DivisibleDevice D] : StepwiseSource (DeviceSource D) where
  ends_close _ := rfl
  fill := stepwise_whenOpen (InputDevice.stepwise_readLoop InputDevice.heedful_readSome)
  readBytes := stepwise_whenOpen (InputDevice.stepwise_readLoop InputDevice.heedful_readAll)

end DeviceSource

/-! ## Devices that follow a script -/

namespace ScriptedInput

variable {n : Nat} {d d' : ScriptedInput} {e : IoError} {given : Bytes}

/-- What does not fit is left for the next call. -/
theorem read_data_of_lt {bytes : Bytes} (h : n < bytes.size) (rest : List InputEntry) :
    read n ⟨.data bytes :: rest⟩ =
      (.ok (bytes.extract 0 n), ⟨.data (bytes.extract n bytes.size) :: rest⟩) := by
  rw [read]
  exact if_neg (Nat.not_le.mpr h)

theorem read_data_of_le {bytes : Bytes} (h : bytes.size ≤ n) (rest : List InputEntry) :
    read n ⟨.data bytes :: rest⟩ = (.ok bytes, ⟨rest⟩) := by
  rw [read]
  exact if_pos h

theorem read_error (h : read (n + 1) d = (.error e, d')) : read 1 d = (.error e, d') := by
  rcases d with ⟨_ | ⟨_ | _ | _, rest⟩⟩
  · cases h
  · rw [read] at h
    dsimp only at h
    split at h <;> cases h
  · cases h
  · exact h

theorem read_nothing (h : read (n + 1) d = (.ok given, d')) (hgiven : given.list = []) :
    read 1 d = (.ok given, d') := by
  rcases d with ⟨_ | ⟨bytes | _ | _, rest⟩⟩
  · exact h
  · by_cases hall : bytes.size ≤ n + 1
    · rw [read_data_of_le hall] at h
      obtain ⟨heq, rfl⟩ := Prod.mk.inj h
      obtain rfl := Except.ok.inj heq
      have hsize : bytes.size = 0 := congrArg List.length hgiven
      exact read_data_of_le (by omega) rest
    · rw [read_data_of_lt (by omega)] at h
      obtain ⟨heq, -⟩ := Prod.mk.inj h
      have hlength := congrArg List.length hgiven
      rw [← Except.ok.inj heq, Bytes.length_list, ByteArray.size_extract,
        List.length_nil] at hlength
      omega
  · exact h
  · cases h

theorem extract_extract (bytes : Bytes) (n : Nat) :
    (bytes.extract 1 bytes.size).extract n (bytes.extract 1 bytes.size).size =
      bytes.extract (n + 1) bytes.size := by
  apply Bytes.ext_list
  simp only [Bytes.list_extract, ← Bytes.length_list, List.take_length]
  rw [List.drop_drop, Nat.add_comm]

/-- The first of two reads gives `b`, and the second one gives the bytes behind it. -/
def InTwo (n : Nat) (d : ScriptedInput) (b : UInt8) (bs : List UInt8) (d' : ScriptedInput) :
    Prop :=
  ∃ first d₁, read 1 d = (.ok first, d₁) ∧ first.list = [b] ∧
    (bs = [] ∧ d₁ = d' ∨ bs ≠ [] ∧ ∃ more, read n d₁ = (.ok more, d') ∧ more.list = bs)

theorem inTwo_of_le {bytes : Bytes} {b : UInt8} {bs : List UInt8} (h : bytes.size ≤ n + 1)
    (hlist : bytes.list = b :: bs) (rest : List InputEntry) :
    InTwo n ⟨.data bytes :: rest⟩ b bs ⟨rest⟩ := by
  have hsize : bytes.size = bs.length + 1 := by
    rw [← Bytes.length_list, hlist, List.length_cons]
  cases bs with
  | nil =>
    exact ⟨bytes, ⟨rest⟩, read_data_of_le (Nat.le_of_eq hsize) rest, hlist, .inl ⟨rfl, rfl⟩⟩
  | cons c cs =>
    rw [List.length_cons] at hsize
    have hmore : (bytes.extract 1 bytes.size).size ≤ n := by
      rw [ByteArray.size_extract]
      omega
    refine ⟨_, _, read_data_of_lt (by omega) rest, ?_, .inr ⟨List.cons_ne_nil c cs, _,
      read_data_of_le hmore rest, ?_⟩⟩
    · rw [Bytes.list_extract, hlist]
      rfl
    · rw [Bytes.list_extract, ← Bytes.length_list, List.take_length, hlist]
      rfl

theorem inTwo_of_lt {bytes : Bytes} {b : UInt8} {cs : List UInt8} (h : n + 1 < bytes.size)
    (hlist : bytes.list = b :: cs) (rest : List InputEntry) :
    InTwo n ⟨.data bytes :: rest⟩ b (cs.take n)
      ⟨.data (bytes.extract (n + 1) bytes.size) :: rest⟩ := by
  have hsize : bytes.size = cs.length + 1 := by
    rw [← Bytes.length_list, hlist, List.length_cons]
  refine ⟨_, _, read_data_of_lt (by omega) rest, ?_, ?_⟩
  · rw [Bytes.list_extract, hlist]
    rfl
  cases n with
  | zero => exact .inl ⟨rfl, rfl⟩
  | succ k =>
    have hless : k + 1 < (bytes.extract 1 bytes.size).size := by
      rw [ByteArray.size_extract]
      omega
    right
    refine ⟨?_, _, (read_data_of_lt hless rest).trans (by rw [extract_extract]), ?_⟩
    · rw [← List.length_pos_iff, List.length_take]
      omega
    · rw [Bytes.list_extract, Bytes.list_extract, ← Bytes.length_list, List.take_length, hlist]
      rfl

theorem read_cons {b : UInt8} {bs : List UInt8} (h : read (n + 1) d = (.ok given, d'))
    (hgiven : given.list = b :: bs) : InTwo n d b bs d' := by
  rcases d with ⟨_ | ⟨bytes | _ | _, rest⟩⟩
  · obtain ⟨heq, -⟩ := Prod.mk.inj h
    rw [← Except.ok.inj heq] at hgiven
    cases hgiven
  · by_cases hall : bytes.size ≤ n + 1
    · rw [read_data_of_le hall] at h
      obtain ⟨heq, rfl⟩ := Prod.mk.inj h
      obtain rfl := Except.ok.inj heq
      exact inTwo_of_le hall hgiven rest
    · rw [read_data_of_lt (by omega)] at h
      obtain ⟨heq, rfl⟩ := Prod.mk.inj h
      obtain rfl := Except.ok.inj heq
      rw [Bytes.list_extract, List.drop_zero] at hgiven
      cases hlist : bytes.list with
      | nil => simp [hlist] at hgiven
      | cons c cs =>
        rw [hlist, List.take_succ_cons] at hgiven
        obtain ⟨rfl, rfl⟩ := List.cons.inj hgiven
        exact inTwo_of_lt (by omega) hlist rest
  · obtain ⟨heq, -⟩ := Prod.mk.inj h
    rw [← Except.ok.inj heq] at hgiven
    cases hgiven
  · cases h

end ScriptedInput

/-- A scripted input none of whose errors is that of a write. -/
@[ext] structure CleanInput where
  input : ScriptedInput
  kind_ne : ∀ e, .fault e ∈ input.script → e.kind ≠ .writeZero

namespace CleanInput

theorem mem_of_mem_read {room : Nat} {d : ScriptedInput} {e : IoError}
    (h : .fault e ∈ (d.read room).2.script) : .fault e ∈ d.script := by
  rcases d with ⟨_ | ⟨bytes | _ | _, rest⟩⟩
  · exact h
  · rw [ScriptedInput.read] at h
    dsimp only at h
    split at h
    · exact .tail _ h
    · exact .tail _ ((List.mem_cons.mp h).resolve_left nofun)
  · exact .tail _ h
  · exact .tail _ h

theorem mem_of_read_error {room : Nat} {d d' : ScriptedInput} {e : IoError}
    (h : d.read room = (.error e, d')) : .fault e ∈ d.script := by
  rcases d with ⟨_ | ⟨bytes | _ | _, rest⟩⟩
  · cases h
  · rw [ScriptedInput.read] at h
    dsimp only at h
    split at h <;> cases h
  · cases h
  · obtain ⟨heq, -⟩ := Prod.mk.inj h
    rw [Except.error.inj heq]
    exact .head _

/-- One call. -/
def read (room : Nat) (d : CleanInput) : Except IoError Bytes × CleanInput :=
  ((d.input.read room).1, ⟨(d.input.read room).2, fun e he => d.kind_ne e (mem_of_mem_read he)⟩)

theorem read_eq_iff {room : Nat} {d d' : CleanInput} {answer : Except IoError Bytes} :
    read room d = (answer, d') ↔ d.input.read room = (answer, d'.input) := by
  rw [read, Prod.mk.injEq, Prod.ext_iff]
  cases d'
  rw [mk.injEq]

instance : InputDevice CleanInput where
  read := read
  patience d := InputDevice.patience d.input
  read_size_le h := InputDevice.read_size_le (δ := ScriptedInput) (read_eq_iff.mp h)
  patience_read_le room d := InputDevice.patience_read_le room d.input
  patience_interrupted h :=
    InputDevice.patience_interrupted (δ := ScriptedInput) (read_eq_iff.mp h)

instance : DivisibleDevice CleanInput where
  kind_ne {_ d _ e} h := d.kind_ne e (mem_of_read_error (read_eq_iff.mp h))
  read_error h := read_eq_iff.mpr (ScriptedInput.read_error (read_eq_iff.mp h))
  read_nothing h hgiven := read_eq_iff.mpr (ScriptedInput.read_nothing (read_eq_iff.mp h) hgiven)
  read_cons {n d d' given b bs} h hgiven := by
    obtain ⟨first, d₁, hfirst, hone, hmore⟩ :=
      ScriptedInput.read_cons (read_eq_iff.mp h) hgiven
    -- the device between the two reads is as clean as the one before them
    obtain rfl : (read 1 d).2.input = d₁ := congrArg Prod.snd hfirst
    refine ⟨first, (read 1 d).2, read_eq_iff.mpr hfirst, hone, ?_⟩
    rcases hmore with ⟨hbs, hsame⟩ | ⟨hbs, more, hmore, hrest⟩
    · exact .inl ⟨hbs, CleanInput.ext hsame⟩
    · exact .inr ⟨hbs, more, read_eq_iff.mpr hmore, hrest⟩

end CleanInput

end ByteFlow
