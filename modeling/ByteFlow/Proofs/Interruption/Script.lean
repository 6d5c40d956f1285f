import ByteFlow.Proofs.Interruption.Device

/-!
# Interruptions anywhere in a script

The devices are those that follow a script, and the interruptions are entries of it.  They may stand
before the first byte, between two parts of a transfer, several in a row, or right before the end.

## Main definitions

* `Strewn` — a list with entries of one sort put in anywhere.
* `ScriptedInput.calm`, `ScriptedOutput.calm` — the device without its interruptions.
* `Unnoticed` — two states in which the same operation comes to the same.
* `interruptions_unnoticed` — wherever a script is interrupted, no request shows it.
-/

namespace ByteFlow

open ByteFlow.Action

variable {σ ε α : Type}

/-! ## Scripts with interruptions -/

/-- The second list is the first one with entries of one sort put in anywhere. -/
inductive Strewn (extra : ε → Bool) : List ε → List ε → Prop
  | nil : Strewn extra [] []
  | keep {xs ys} (e : ε) : Strewn extra xs ys → Strewn extra (e :: xs) (e :: ys)
  | put {xs ys} {e : ε} : extra e = true → Strewn extra xs ys → Strewn extra xs (e :: ys)

/-- Without the entries of that sort they are the same. -/
theorem Strewn.filter_eq {extra : ε → Bool} {xs ys : List ε} (h : Strewn extra xs ys) :
    ys.filter (fun e => !extra e) = xs.filter fun e => !extra e := by
  induction h with
  | nil => rfl
  | keep e _ ih => rw [List.filter_cons, List.filter_cons, ih]
  | put he _ ih =>
    rw [List.filter_cons_of_neg (by simp [he])]
    exact ih

/-- Whether the entry is an interruption. -/
def InputEntry.interrupts : InputEntry → Bool
  | .fault e => e.kind = .interrupted
  | _ => false

/-- Whether the entry is an interruption. -/
def OutputEntry.interrupts : OutputEntry → Bool
  | .fault e => e.kind = .interrupted
  | _ => false

/-! ### Input -/

namespace ScriptedInput

/-- The device without its interruptions. -/
def calm (d : ScriptedInput) : ScriptedInput := ⟨d.script.filter fun entry => !entry.interrupts⟩

theorem calm_cons_of_interrupts {entry : InputEntry} (h : entry.interrupts = true)
    (rest : List InputEntry) : calm ⟨entry :: rest⟩ = calm ⟨rest⟩ := by
  rw [calm, List.filter_cons_of_neg (by simp [h])]
  rfl

theorem calm_cons_of_not_interrupts {entry : InputEntry} (h : entry.interrupts = false)
    (rest : List InputEntry) : calm ⟨entry :: rest⟩ = ⟨entry :: (calm ⟨rest⟩).script⟩ := by
  rw [calm, List.filter_cons_of_pos (by simp [h])]
  rfl

/-- A call is interrupted, or it comes to the same without the interruptions behind it. -/
theorem read_calm (room : Nat) (d : ScriptedInput) :
    (∃ e d', e.kind = .interrupted ∧ read room d = (.error e, d') ∧ calm d' = calm d) ∨
      read room (calm d) = Prod.map id calm (read room d) := by
  rcases d with ⟨_ | ⟨bytes | _ | e, rest⟩⟩
  · exact .inr rfl
  · right
    rw [calm_cons_of_not_interrupts rfl]
    by_cases hall : bytes.size ≤ room
    · rw [read_data_of_le hall, read_data_of_le hall]
      rfl
    · rw [read_data_of_lt (Nat.lt_of_not_le hall), read_data_of_lt (Nat.lt_of_not_le hall)]
      exact congrArg (Prod.mk _) (calm_cons_of_not_interrupts rfl rest).symm
  · exact .inr rfl
  · by_cases hkind : e.kind = .interrupted
    · have hinterrupts : (InputEntry.fault e).interrupts = true := decide_eq_true hkind
      exact .inl ⟨e, ⟨rest⟩, hkind, rfl, (calm_cons_of_interrupts hinterrupts rest).symm⟩
    · have hinterrupts : (InputEntry.fault e).interrupts = false := decide_eq_false hkind
      rw [calm_cons_of_not_interrupts hinterrupts]
      exact .inr rfl

theorem dismisses_readOnce :
    Dismisses calm (InputDevice.readOnce : Action (ScriptedInput × Region) _) := by
  intro d r
  cases hreadOnly : r.readOnly with
  | true =>
    right
    rw [InputDevice.run_readOnce_of_readOnly hreadOnly,
      InputDevice.run_readOnce_of_readOnly hreadOnly]
    rfl
  | false =>
    obtain ⟨e, d', hkind, hread, hcalm⟩ | hsame := read_calm r.remaining d
    · exact .inl ⟨e, d', hkind, InputDevice.run_readOnce_of_error hreadOnly hread, hcalm⟩
    · exact .inr (InputDevice.run_readOnce_map hreadOnly hsame)

end ScriptedInput

/-! ### Output -/

namespace ScriptedOutput

/-- The device without its interruptions. -/
def calm (d : ScriptedOutput) : ScriptedOutput :=
  { d with script := d.script.filter fun entry => !entry.interrupts }

/-- A call is interrupted, or it comes to the same without the interruptions behind it. -/
theorem write_calm (offered : Bytes) (d : ScriptedOutput) :
    (∃ e d', e.kind = .interrupted ∧ write offered d = (.error e, d') ∧ calm d' = calm d) ∨
      write offered (calm d) = Prod.map id calm (write offered d) := by
  rcases d with ⟨capacity, _ | ⟨most | e, rest⟩, flushScript, pending, flushed⟩
  · exact .inr rfl
  · exact .inr rfl
  · by_cases hkind : e.kind = .interrupted
    · refine .inl ⟨e, _, hkind, rfl, ?_⟩
      simp [calm, OutputEntry.interrupts, hkind]
    · right
      simp [calm, OutputEntry.interrupts, hkind, write]

theorem dismisses_writeOnce :
    Dismisses calm (OutputDevice.writeOnce : Action (ScriptedOutput × Region) _) := by
  intro d r
  obtain ⟨e, d', hkind, hwrite, hcalm⟩ | hsame := write_calm r.window d
  · exact .inl ⟨e, d', hkind, OutputDevice.run_writeOnce_of_error hwrite, hcalm⟩
  · exact .inr (OutputDevice.run_writeOnce_map hsame)

theorem commutes_pushOut : Commutes calm (OutputDevice.pushOut : Action ScriptedOutput Unit) := by
  rintro ⟨capacity, script, _ | ⟨_ | e, rest⟩, pending, flushed⟩ <;> rfl

end ScriptedOutput

/-! ## Runs -/

/-- In both states the operation answers the same and traces the same, and `f` makes the same of
what it leaves. -/
structure Unnoticed (f : σ → σ) (x : Action σ α) (s t : σ) : Prop where
  answer_eq : (x.run t).answer = (x.run s).answer
  events_eq : (x.run t).events = (x.run s).events
  state_eq : f (x.run t).state = f (x.run s).state

theorem Unnoticed.of_alike {f : σ → σ} {x : Action σ α} {s t : σ}
    (h : Alike (fun s t => f s = f t) x x) (hst : f t = f s) : Unnoticed f x s t := by
  obtain ⟨hanswer, hevents, hstate⟩ := h t s hst
  exact ⟨hanswer, hevents, hstate⟩

/-- Wherever the script of a device is interrupted, and however often: the source or sink over it
gets the same requests done in the same way, with the same replies, the same regions and the same
bytes, and what it leaves is the same but for interruptions that are still to come.  The loops at
the device end by themselves, whatever is in its script. -/
theorem interruptions_unnoticed :
    (∀ (script strewn : List InputEntry) (closed : Bool) (requests : List SourceRequest),
      Strewn InputEntry.interrupts script strewn →
      Unnoticed (DeviceSource.onDevice ScriptedInput.calm)
        (requests.mapM SourceRequest.perform) ⟨⟨script⟩, closed⟩ ⟨⟨strewn⟩, closed⟩) ∧
    (∀ (d : ScriptedOutput) (strewn : List OutputEntry) (closed : Bool)
      (requests : List SinkRequest), Strewn OutputEntry.interrupts d.script strewn →
      Unnoticed (DeviceSink.onDevice ScriptedOutput.calm)
        (requests.mapM SinkRequest.perform) ⟨d, closed⟩ ⟨{ d with script := strewn }, closed⟩) ∧
    (∀ p : ScriptedInput × Region,
      Stops InputDevice.fillTurn p (InputDevice.readSome.run p) ∧
      Stops (InputDevice.readTurn (fail .endOfStream) fun e => fail (.ofIo e)) p
        (InputDevice.readAll.run p)) ∧
    ∀ p : ScriptedOutput × Region,
      Stops OutputDevice.drainTurn p (OutputDevice.writeSome.run p) ∧
      Stops (OutputDevice.writeTurn (fail .endOfStream) fun e => fail (.ofIo e)) p
        (OutputDevice.writeAll.run p) := by
  refine ⟨?source, ?sink, fun p => ⟨?fill, ?readAll⟩, fun p => ⟨?drain, ?writeAll⟩⟩
  case source =>
    intro script strewn closed requests hstrewn
    refine .of_alike (.mapM (DeviceSource.alike ScriptedInput.dismisses_readOnce) requests) ?_
    have hcalm : ScriptedInput.calm ⟨strewn⟩ = ScriptedInput.calm ⟨script⟩ :=
      congrArg ScriptedInput.mk hstrewn.filter_eq
    exact congrArg (DeviceSource.mk · closed) hcalm
  case sink =>
    intro d strewn closed requests hstrewn
    refine .of_alike (.mapM (DeviceSink.alike ScriptedOutput.dismisses_writeOnce
      ScriptedOutput.commutes_pushOut) requests) ?_
    have hcalm : ScriptedOutput.calm { d with script := strewn } = ScriptedOutput.calm d :=
      congrArg (fun script => { d with script }) hstrewn.filter_eq
    exact congrArg (DeviceSink.mk · closed) hcalm
  case fill => exact InputDevice.stops_readLoop (concludes_pure ()) (concludes_unless _) p
  case readAll => exact InputDevice.stops_readLoop (concludes_fail _) (fun _ => concludes_fail _) p
  case drain => exact OutputDevice.stops_writeLoop (concludes_pure ()) (concludes_unless _) p
  case writeAll =>
    exact OutputDevice.stops_writeLoop (concludes_fail _) (fun _ => concludes_fail _) p

/-- An interruption by a signal. -/
def bySignal : IoError := ⟨.interrupted, "interrupted by a signal"⟩

/-- A source that is interrupted before the first byte, between the two and before the end gives the
same region, and a sink that is interrupted between two short writes takes the same bytes. -/
theorem interruptions_unnoticed_of_busy_scripts :
    let script : List InputEntry := [.data (Bytes.ofList [7]), .data (Bytes.ofList [8]), .pause]
    let strewn : List InputEntry := [.fault bySignal, .data (Bytes.ofList [7]), .fault bySignal,
      .fault bySignal, .data (Bytes.ofList [8]), .fault bySignal, .pause]
    let calm : ScriptedOutput :=
      ⟨some 3, [.limit 1, .limit 2], [], ByteArray.empty, ByteArray.empty⟩
    let limits : List OutputEntry := [.limit 1, .fault bySignal, .limit 2, .fault bySignal]
    let fills : List SourceRequest := [.data (.fill (Region.allocate 4 .direct)), .close]
    let writes : List SinkRequest := [.data (.value (.bytes (Bytes.ofList [1, 2, 3, 4])))]
    Strewn InputEntry.interrupts script strewn ∧ Strewn OutputEntry.interrupts calm.script limits ∧
      Unnoticed (DeviceSource.onDevice ScriptedInput.calm) (fills.mapM SourceRequest.perform)
        ⟨⟨script⟩, false⟩ ⟨⟨strewn⟩, false⟩ ∧
      Unnoticed (DeviceSink.onDevice ScriptedOutput.calm) (writes.mapM SinkRequest.perform)
        ⟨calm, false⟩ ⟨{ calm with script := limits }, false⟩ ∧
      (InputDevice.readSome.run
        ((⟨strewn⟩ : ScriptedInput), Region.allocate 4 .direct)).state.2.filled =
        Bytes.ofList [7, 8] := by
  intro script strewn calm limits fills writes
  have hstrewn : Strewn InputEntry.interrupts script strewn :=
    .put rfl (.keep _ (.put rfl (.put rfl (.keep _ (.put rfl (.keep _ .nil))))))
  have hlimits : Strewn OutputEntry.interrupts calm.script limits :=
    .keep _ (.put rfl (.keep _ (.put rfl .nil)))
  exact ⟨hstrewn, hlimits, interruptions_unnoticed.1 _ _ _ _ hstrewn,
    interruptions_unnoticed.2.1 _ _ _ _ hlimits, by decide +kernel⟩

end ByteFlow
