import ByteFlow.Proofs.Meter.Endpoint
import ByteFlow.Proofs.Stepwise.Sink.Basic
import ByteFlow.Scripted.Device

/-!
# Output devices, byte by byte

A device that is offered many bytes may take any number of them.  For the sink over it to
write byte by byte, the device must take in pieces what it would take at once.  A device that
has room for so many bytes and never fails is like that.

The loop around the writes counts its turns, and the count is large enough for every run, so
the loop has an equation without it.  That equation holds of every device.

## Main definitions

* `OutputDevice.Heedful` — what the loop makes of a refusal and of an error.
* `OutputDevice.ends_writeLoop` — one turn of the loop, and the loop again.
* `SteadyDevice` — devices that take in pieces what they would take at once.
* `OutputDevice.stepwise_writeLoop` — over such a device the loop writes byte by byte.
* `SteadyOutput` — scripted outputs with nothing but their room in the way.
-/

namespace ByteFlow

open ByteFlow.Action

namespace OutputDevice

variable {δ : Type}

/-! ## The loop without its count -/

section Loop

variable {ended : Except Fault Unit} {stopped : IoError → Except Fault Unit}
  {refused : Action (δ × Region) (Option Unit)}
  {onError : IoError → Action (δ × Region) (Option Unit)}

/-- The loop answers `ended` when the device takes nothing, and to an error what `stopped`
says. -/
structure Heedful (ended : Except Fault Unit) (stopped : IoError → Except Fault Unit)
    (refused : Action (δ × Region) (Option Unit))
    (onError : IoError → Action (δ × Region) (Option Unit)) : Prop where
  ends_refused : ∀ p Q, refused.Ends p Q ↔ Q (ended.map some) p
  ends_onError : ∀ e p Q, (onError e).Ends p Q ↔ Q ((stopped e).map some) p

theorem heedful_writeAll : Heedful (δ := δ) (.error .endOfStream) (fun e => .error (.ofIo e))
    (fail .endOfStream) fun e => fail (.ofIo e) where
  ends_refused _ _ := Iff.rfl
  ends_onError _ _ _ := Iff.rfl

theorem heedful_writeSome : Heedful (δ := δ) (.ok ())
    (fun e => if e.kind = .writeZero then .ok () else .error (.ofIo e)) (pure (some ()))
    fun e => if e.kind = .writeZero then pure (some ()) else fail (.ofIo e) where
  ends_refused _ _ := Iff.rfl
  ends_onError e p Q := by split <;> exact Iff.rfl

variable [OutputDevice δ]

/-- One turn of the loop. -/
def writeTurn (refused : Action (δ × Region) (Option Unit))
    (onError : IoError → Action (δ × Region) (Option Unit)) :
    Action (δ × Region) (Option Unit) := do
  if ← gets fun (_, region) => region.hasRemaining then
    match ← writeOnce with
    | .ok 0 => refused
    | .ok _ => pure none
    | .error e => if e.kind = .interrupted then pure none else onError e
  else
    pure (some ())

theorem writeLoop_eq : writeLoop refused onError = (do
    let turns ← gets fun (device, region) => region.remaining + patience device
    repeatUntil (turns + 1) (writeTurn refused onError) (pure ())) :=
  rfl

theorem ends_writeTurn (h : Heedful ended stopped refused onError) (d : δ) (r : Region)
    (Q : Except Fault (Option Unit) → δ × Region → Prop) :
    (writeTurn refused onError).Ends (d, r) Q ↔
      if r.remaining = 0 then Q (.ok (some ())) (d, r)
      else
        match write r.window d with
        | (.ok taken, d') =>
          if taken = 0 then Q (ended.map some) (d', r) else Q (.ok none) (d', r.skip taken)
        | (.error e, d') =>
          if e.kind = .interrupted then Q (.ok none) (d', r)
          else Q ((stopped e).map some) (d', r) := by
  rw [writeTurn, ends_gets_bind]
  by_cases hroom : r.remaining = 0
  · rw [if_pos hroom, if_neg (by simpa using hroom)]
    exact Iff.rfl
  rw [if_neg hroom, if_pos (by simpa using hroom), ends_bind, ends_writeOnce]
  rcases write r.window d with ⟨e | taken, d'⟩
  · by_cases hkind : e.kind = .interrupted
    · simp only [hkind, if_true]
      exact Iff.rfl
    · simp only [hkind, if_false]
      exact h.ends_onError e _ Q
  · cases taken with
    | zero => exact h.ends_refused _ Q
    | succ n => exact Iff.rfl

/-- A write that takes something leaves fewer turns to take. -/
theorem turns_write_lt {d d' : δ} {r : Region} {taken : Nat}
    (hwrite : write r.window d = (.ok taken, d')) (hroom : r.remaining ≠ 0) (htaken : taken ≠ 0) :
    (r.skip taken).remaining + patience d' < r.remaining + patience d := by
  have hpatience : patience d' ≤ patience d := by
    have hle := patience_write_le r.window d
    rwa [hwrite] at hle
  rw [Region.remaining_skip]
  omega

/-- Turns that are not needed do not show. -/
theorem ends_turns (h : Heedful ended stopped refused onError) {n m : Nat} {d : δ} {r : Region}
    (hn : r.remaining + patience d < n) (hm : r.remaining + patience d < m)
    (Q : Except Fault Unit → δ × Region → Prop) :
    (repeatUntil n (writeTurn refused onError) (pure ())).Ends (d, r) Q ↔
      (repeatUntil m (writeTurn refused onError) (pure ())).Ends (d, r) Q := by
  induction n generalizing m d r with
  | zero => omega
  | succ n ih =>
    obtain ⟨m, rfl⟩ := Nat.exists_eq_succ_of_ne_zero (Nat.ne_zero_of_lt hm)
    rw [ends_repeatUntil_succ, ends_repeatUntil_succ, ends_writeTurn h, ends_writeTurn h]
    split
    · exact Iff.rfl
    rename_i hroom
    rcases hwrite : write r.window d with ⟨e | taken, d'⟩
    · dsimp only
      split
      · have hpatience := patience_interrupted hwrite ‹_›
        exact ih (by omega) (by omega)
      · cases stopped e <;> exact Iff.rfl
    · dsimp only
      split
      · cases ended <;> exact Iff.rfl
      · have hless := turns_write_lt hwrite hroom ‹_›
        exact ih (Nat.lt_of_lt_of_le hless (by omega)) (Nat.lt_of_lt_of_le hless (by omega))

/-- The loop writes once, and is done or starts again. -/
theorem ends_writeLoop (h : Heedful ended stopped refused onError) (d : δ) (r : Region)
    (Q : Except Fault Unit → δ × Region → Prop) :
    (writeLoop refused onError).Ends (d, r) Q ↔
      if r.remaining = 0 then Q (.ok ()) (d, r)
      else
        match write r.window d with
        | (.ok taken, d') =>
          if taken = 0 then Q ended (d', r)
          else (writeLoop refused onError).Ends (d', r.skip taken) Q
        | (.error e, d') =>
          if e.kind = .interrupted then (writeLoop refused onError).Ends (d', r) Q
          else Q (stopped e) (d', r) := by
  simp only [writeLoop_eq, ends_gets_bind]
  rw [ends_repeatUntil_succ, ends_writeTurn h]
  split
  · exact Iff.rfl
  rename_i hroom
  rcases hwrite : write r.window d with ⟨e | taken, d'⟩
  · dsimp only
    split
    · have hpatience := patience_interrupted hwrite ‹_›
      exact ends_turns h (by omega) (by omega) Q
    · cases stopped e <;> exact Iff.rfl
  · dsimp only
    split
    · cases ended <;> exact Iff.rfl
    · have hless := turns_write_lt hwrite hroom ‹_›
      exact ends_turns h hless (Nat.lt_succ_self _) Q

end Loop

/-! ## One byte to a device -/

variable [OutputDevice δ]

/-- One byte, written as a region of one byte. -/
def put (b : UInt8) : Action δ Unit := do
  let _ ← alongside (Region.wrapReadOnly (Bytes.ofList [b])) writeAll

theorem ends_put (b : UInt8) (d : δ) (Q : Except Fault Unit → δ → Prop) :
    (put b).Ends d Q ↔
      match write (Bytes.ofList [b]) d with
      | (.ok taken, d') => if taken = 0 then Q (.error .endOfStream) d' else Q (.ok ()) d'
      | (.error e, d') =>
        if e.kind = .interrupted then (put b).Ends d' Q else Q (.error (.ofIo e)) d' := by
  have hwindow : (Region.wrapReadOnly (Bytes.ofList [b])).window = Bytes.ofList [b] :=
    Bytes.ext_list (Region.list_window_wrapReadOnly _)
  have hroom : (Region.wrapReadOnly (Bytes.ofList [b])).remaining = 1 := rfl
  simp only [put, ends_bind, ends_alongside]
  rw [writeAll, ends_writeLoop heedful_writeAll, if_neg (by simp [hroom]), hwindow]
  rcases write (Bytes.ofList [b]) d with ⟨e | taken, d'⟩
  · dsimp only
    split <;> exact Iff.rfl
  · dsimp only
    split
    · exact Iff.rfl
    · rename_i htaken
      have hfull : ((Region.wrapReadOnly (Bytes.ofList [b])).skip taken).remaining = 0 := by
        rw [Region.remaining_skip, hroom]
        omega
      rw [ends_writeLoop heedful_writeAll, if_pos hfull]
      exact Iff.rfl

end OutputDevice

/-- A device that takes in two writes what it would take in one, and that never fails. -/
class SteadyDevice (D : Type) [OutputDevice D] : Prop where
  write_ok : ∀ (offered : Bytes) (d : D), ∃ taken, (OutputDevice.write offered d).1 = .ok taken
  flush_ok : ∀ d : D, (OutputDevice.flush d).1 = .ok ()
  write_nothing : ∀ {offered : Bytes} {b : UInt8} {rest : List UInt8} {d d' : D},
    offered.list = b :: rest → OutputDevice.write offered d = (.ok 0, d') →
      OutputDevice.write (Bytes.ofList [b]) d = (.ok 0, d')
  write_succ : ∀ {offered : Bytes} {b : UInt8} {rest : List UInt8} {n : Nat} {d d' : D},
    offered.list = b :: rest → OutputDevice.write offered d = (.ok (n + 1), d') →
      ∃ d₁, OutputDevice.write (Bytes.ofList [b]) d = (.ok 1, d₁) ∧
        (n = 0 ∧ d₁ = d' ∨ n ≠ 0 ∧ OutputDevice.write (Bytes.ofList rest) d₁ = (.ok n, d'))

namespace OutputDevice

variable {δ : Type} [OutputDevice δ] [SteadyDevice δ] {ended : Except Fault Unit}
  {stopped : IoError → Except Fault Unit} {refused : Action (δ × Region) (Option Unit)}
  {onError : IoError → Action (δ × Region) (Option Unit)}

/-- After a write that took something, the loop stands where it would stand after a write of
one byte, or after the write that follows that. -/
theorem ends_writeLoop_taken (h : Heedful ended stopped refused onError) {d d' : δ} {r : Region}
    {b : UInt8} {rest : List UInt8} (hr : r.Shows b rest) {n : Nat}
    (hwrite : write r.window d = (.ok (n + 1), d')) :
    ∃ d₁, write (Bytes.ofList [b]) d = (.ok 1, d₁) ∧ ∀ Q,
      (writeLoop refused onError).Ends (d', r.skip (n + 1)) Q ↔
        if (r.skip 1).remaining = 0 then Q (.ok ()) (d₁, r.skip 1)
        else (writeLoop refused onError).Ends (d₁, r.skip 1) Q := by
  obtain ⟨d₁, hone, hmore⟩ := SteadyDevice.write_succ hr.list_window hwrite
  refine ⟨d₁, hone, fun Q => ?_⟩
  rcases hmore with ⟨rfl, rfl⟩ | ⟨hn, hmore⟩
  · by_cases hfull : (r.skip 1).remaining = 0
    · rw [ends_writeLoop h, if_pos hfull, if_pos hfull]
    · rw [if_neg hfull]
  · have hwindow : (r.skip 1).window = Bytes.ofList rest := by
      apply Bytes.ext_list
      rw [Region.list_window_skip, hr.list_window]
      rfl
    have hmost : n ≤ rest.length := write_le hmore
    have hfree : (r.skip 1).remaining ≠ 0 := by
      rw [hr.remaining_skip_one]
      omega
    rw [if_neg hfree, ends_writeLoop h d₁, if_neg hfree, hwindow, hmore]
    dsimp only
    rw [if_neg hn, Region.skip_skip, Nat.add_comm 1]

/-- The loop writes byte by byte. -/
theorem stepwise_writeLoop (h : Heedful ended stopped refused onError) :
    Sink.Stepwise ended put (writeLoop refused onError) := by
  intro d r b rest hr Q
  rw [ends_writeLoop h, if_neg (by simp [hr.remaining_eq]), ends_put]
  rcases hwrite : write r.window d with ⟨e | taken, d'⟩
  · obtain ⟨taken, hok⟩ := SteadyDevice.write_ok r.window d
    rw [hwrite] at hok
    cases hok
  cases taken with
  | zero =>
    rw [SteadyDevice.write_nothing hr.list_window hwrite]
    rfl
  | succ n =>
    obtain ⟨d₁, hone, hgoes⟩ := ends_writeLoop_taken h hr hwrite
    rw [hone]
    exact hgoes Q

theorem ends_pushOut_ok (d : δ) :
    (pushOut : Action δ Unit).Ends d fun answer _ => answer = .ok () := by
  simp only [Ends, pushOut, SteadyDevice.flush_ok d]
  rfl

end OutputDevice

namespace DeviceSink

variable {D : Type} [OutputDevice D]

omit [OutputDevice D] in
theorem ends_whenOpenWith {ρ : Type} (x : Action (D × ρ) Unit) (d : D) (a : ρ)
    (Q : Except Fault Unit → DeviceSink D × ρ → Prop) :
    (whenOpenWith x).Ends (⟨d, false⟩, a) Q ↔
      x.Ends (d, a) fun answer p => Q answer (⟨p.1, false⟩, p.2) := Iff.rfl

/-- An open sink writes its bytes to the device. -/
theorem ends_writeBytes (bytes : Bytes) (d : D) (Q : Except Fault Unit → DeviceSink D → Prop) :
    (writeBytes bytes).Ends ⟨d, false⟩ Q ↔
      (do let _ ← alongside (Region.wrapReadOnly bytes) OutputDevice.writeAll :
        Action D Unit).Ends d fun answer d' => Q answer ⟨d', false⟩ := by
  simp only [writeBytes, ends_bind, ends_alongside, ends_whenOpenWith]
  refine ends_congr fun answer p => ?_
  cases answer <;> exact Iff.rfl

theorem stepwise_whenOpenWith {ended : Except Fault Unit} {bulk : Action (D × Region) Unit}
    (h : Sink.Stepwise ended OutputDevice.put bulk) :
    Sink.Stepwise ended (fun v => writeBytes (Bytes.ofList [v])) (whenOpenWith bulk) := by
  intro s r b rest hr
  rcases s with ⟨d, closed⟩
  cases closed with
  | true => exact .of_refused .closed (by simp) (fun Q => Iff.rfl) (fun Q => Iff.rfl)
  | false =>
    exact h.lift (fun d => (⟨d, false⟩ : DeviceSink D)) (fun v => ends_writeBytes _)
      (fun _ _ _ => Iff.rfl) d hr

variable [SteadyDevice D]

theorem piecewise_writeBytes :
    Sink.Piecewise (fun v => writeBytes (Bytes.ofList [v])) (writeBytes (δ := D)) :=
  (stepwise_whenOpenWith (OutputDevice.stepwise_writeLoop OutputDevice.heedful_writeAll)).piecewise

/-- A flush of a closed sink fails, but not as if the stream had ended. -/
theorem ends_flush (s : DeviceSink D) :
    (whenOpen OutputDevice.pushOut).Ends s fun answer _ => answer ≠ .error .endOfStream := by
  rcases s with ⟨d, closed⟩
  cases closed with
  | true => simp [Ends, whenOpen]
  | false =>
    have hok := OutputDevice.ends_pushOut_ok d
    change OutputDevice.pushOut.Ends d fun answer _ => answer ≠ .error .endOfStream
    exact hok.mono fun _ _ h => by simp [h]

theorem ends_shut (s : DeviceSink D) :
    shut.Ends s fun answer _ => answer ≠ .error .endOfStream := by
  rcases s with ⟨d, closed⟩
  cases closed with
  | true => simp [Ends, shut]
  | false =>
    have hok := OutputDevice.ends_pushOut_ok d
    change OutputDevice.pushOut.Ends d fun answer _ => answer ≠ .error .endOfStream
    exact hok.mono fun _ _ h => by simp [h]

instance : StepwiseSink (DeviceSink D) where
  ends_flush := ends_flush
  ends_close := ends_shut
  drain := stepwise_whenOpenWith (OutputDevice.stepwise_writeLoop OutputDevice.heedful_writeSome)
  writeBytes := piecewise_writeBytes

end DeviceSink

/-! ## Devices with nothing but their room in the way -/

namespace ScriptedOutput

variable {d : ScriptedOutput}

/-- Without a script the device takes what there is room for. -/
theorem write_of_nil (h : d.script = []) (offered : Bytes) :
    d.write offered =
      (.ok (d.room offered.size),
        { d with pending := d.pending ++ offered.extract 0 (d.room offered.size) }) := by
  simp [write, h, accept]

/-- A device without room for many bytes has none for a single one. -/
theorem room_one {n : Nat} (hn : n ≠ 0) (h : d.room n = 0) : d.room 1 = 0 := by
  cases hcapacity : d.capacity with
  | none =>
    simp only [room, hcapacity] at h
    exact absurd h hn
  | some capacity =>
    simp only [room, hcapacity] at h ⊢
    omega

/-- A byte takes up the room of one. -/
theorem room_pending (b : UInt8) {n m : Nat} (h : d.room (m + 1) = n + 1) :
    d.room 1 = 1 ∧
      ({ d with pending := d.pending ++ Bytes.ofList [b] } : ScriptedOutput).room m = n := by
  have hsize : (d.pending ++ Bytes.ofList [b]).size = d.pending.size + 1 := ByteArray.size_append
  cases hcapacity : d.capacity with
  | none => simpa [room, hcapacity] using h
  | some capacity =>
    simp only [room, hcapacity, hsize] at h ⊢
    omega

/-- A write that takes nothing changes nothing. -/
theorem eq_of_write_nothing {offered : Bytes} {d' : ScriptedOutput} (h : d.script = [])
    (hwrite : d.write offered = (.ok 0, d')) : d.room offered.size = 0 ∧ d' = d := by
  rw [write_of_nil h] at hwrite
  obtain ⟨hroom, rfl⟩ := Prod.mk.inj hwrite
  replace hroom : d.room offered.size = 0 := Except.ok.inj hroom
  have hnothing : d.pending ++ offered.extract 0 0 = d.pending := Bytes.ext_list (by simp)
  rw [hroom, hnothing]
  exact ⟨rfl, rfl⟩

theorem write_nothing {offered : Bytes} {b : UInt8} {rest : List UInt8} {d' : ScriptedOutput}
    (h : d.script = []) (hlist : offered.list = b :: rest)
    (hwrite : d.write offered = (.ok 0, d')) :
    d.write (Bytes.ofList [b]) = (.ok 0, d') := by
  obtain ⟨hroom, rfl⟩ := eq_of_write_nothing h hwrite
  have hsize : offered.size ≠ 0 := by
    rw [← Bytes.length_list, hlist]
    simp
  have hone : d'.room (Bytes.ofList [b]).size = 0 := room_one hsize hroom
  have hnothing : d'.pending ++ (Bytes.ofList [b]).extract 0 0 = d'.pending :=
    Bytes.ext_list (by simp)
  rw [write_of_nil h, hone, hnothing]

theorem write_succ {offered : Bytes} {b : UInt8} {rest : List UInt8} {n : Nat}
    {d' : ScriptedOutput} (h : d.script = []) (hlist : offered.list = b :: rest)
    (hwrite : d.write offered = (.ok (n + 1), d')) :
    ∃ d₁ : ScriptedOutput, d₁.script = [] ∧ d.write (Bytes.ofList [b]) = (.ok 1, d₁) ∧
      d₁.write (Bytes.ofList rest) = (.ok n, d') := by
  have hsize : offered.size = rest.length + 1 := by
    rw [← Bytes.length_list, hlist, List.length_cons]
  rw [write_of_nil h] at hwrite
  obtain ⟨hroom, rfl⟩ := Prod.mk.inj hwrite
  replace hroom : d.room offered.size = n + 1 := Except.ok.inj hroom
  obtain ⟨hone, hmore⟩ := room_pending b (hsize ▸ hroom)
  have hfirst : (Bytes.ofList [b]).extract 0 1 = Bytes.ofList [b] := Bytes.ext_list (by simp)
  have hall : d.pending ++ offered.extract 0 (n + 1) =
      d.pending ++ Bytes.ofList [b] ++ (Bytes.ofList rest).extract 0 n := by
    apply Bytes.ext_list
    simp [hlist]
  refine ⟨{ d with pending := d.pending ++ Bytes.ofList [b] }, h, ?_, ?_⟩
  · rw [write_of_nil h, Region.size_ofList, List.length_singleton, hone, hfirst]
  · rw [write_of_nil (by exact h), Region.size_ofList, hmore, hroom, hall]

end ScriptedOutput

/-- A scripted output that takes what there is room for, and whose flushes succeed. -/
@[ext] structure SteadyOutput where
  output : ScriptedOutput
  script_eq : output.script = []
  flush_ne : ∀ e, some e ∉ output.flushScript

namespace SteadyOutput

/-- One call. -/
def write (offered : Bytes) (d : SteadyOutput) : Except IoError Nat × SteadyOutput :=
  ((d.output.write offered).1, {
    output := (d.output.write offered).2
    script_eq := by
      rw [ScriptedOutput.write_of_nil d.script_eq]
      exact d.script_eq
    flush_ne := by
      rw [ScriptedOutput.write_of_nil d.script_eq]
      exact d.flush_ne })

theorem write_eq_iff {offered : Bytes} {d d' : SteadyOutput} {answer : Except IoError Nat} :
    write offered d = (answer, d') ↔ d.output.write offered = (answer, d'.output) := by
  rw [write, Prod.mk.injEq, Prod.ext_iff]
  cases d'
  rw [mk.injEq]

/-- A flush leaves the script alone, and the flushes after it as they were. -/
theorem script_flush {d : ScriptedOutput} (h : ∀ e, some e ∉ d.flushScript) :
    d.flush.1 = .ok () ∧ d.flush.2.script = d.script ∧
      ∀ e, some e ∉ d.flush.2.flushScript := by
  rcases d with ⟨capacity, script, _ | ⟨_ | e, rest⟩, pending, flushed⟩
  · exact ⟨rfl, rfl, h⟩
  · exact ⟨rfl, rfl, fun e he => h e (.tail _ he)⟩
  · exact absurd (.head _) (h e)

/-- Passing on what is held back. -/
def flush (d : SteadyOutput) : Except IoError Unit × SteadyOutput :=
  (d.output.flush.1, {
    output := d.output.flush.2
    script_eq := (script_flush d.flush_ne).2.1.trans d.script_eq
    flush_ne := (script_flush d.flush_ne).2.2 })

instance : OutputDevice SteadyOutput where
  write := write
  flush := flush
  patience d := OutputDevice.patience d.output
  write_le h := OutputDevice.write_le (δ := ScriptedOutput) (write_eq_iff.mp h)
  patience_write_le offered d := OutputDevice.patience_write_le offered d.output
  patience_interrupted h :=
    OutputDevice.patience_interrupted (δ := ScriptedOutput) (write_eq_iff.mp h)

instance : SteadyDevice SteadyOutput where
  write_ok offered d := by
    refine ⟨d.output.room offered.size, ?_⟩
    change (d.output.write offered).1 = _
    rw [ScriptedOutput.write_of_nil d.script_eq]
  flush_ok d := (script_flush d.flush_ne).1
  write_nothing {_ _ _ d _} hlist hwrite :=
    write_eq_iff.mpr (ScriptedOutput.write_nothing d.script_eq hlist (write_eq_iff.mp hwrite))
  write_succ {offered b rest n d d'} hlist hwrite := by
    obtain ⟨d₁, hscript, hone, hmore⟩ :=
      ScriptedOutput.write_succ d.script_eq hlist (write_eq_iff.mp hwrite)
    -- the device between the two writes is as steady as the one before them
    obtain rfl : (write (Bytes.ofList [b]) d).2.output = d₁ := congrArg Prod.snd hone
    refine ⟨(write (Bytes.ofList [b]) d).2, write_eq_iff.mpr hone, ?_⟩
    by_cases hn : n = 0
    · subst hn
      have hsame := (ScriptedOutput.eq_of_write_nothing hscript hmore).2
      exact .inl ⟨rfl, SteadyOutput.ext hsame.symm⟩
    · exact .inr ⟨hn, write_eq_iff.mpr hmore⟩

end SteadyOutput

end ByteFlow
