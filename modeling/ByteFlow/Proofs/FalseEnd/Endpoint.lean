import ByteFlow.Endpoint.Basic
import ByteFlow.Proofs.FalseEnd.Basic
import ByteFlow.Proofs.Memory
import ByteFlow.Proofs.Meter.Endpoint

/-!
# False ends at an endpoint

A stream in memory is over no device, so it is enough that it raises no end.  Over a watched
device the loop for best effort handles one of the two kinds of errors that stand for an
end, and the other kind is just the one that the watch counts.

## Main definitions

* `Tallies kind once` — a call whose errors of the given kind are counted.
* `accounts_turn` — one turn of the loop around such a call.
* Instances of `AccountedSource` and `AccountedSink` for all endpoints.
-/

namespace ByteFlow

open ByteFlow.Action

variable {D E S σ α δ : Type}

/-! ## Streams in memory -/

/-- There are no devices under the stream, so it is enough that no end is raised. -/
theorem Accounts.of_ne [FalseEnds σ] {x : Action σ α} (hzero : ∀ s : σ, falseEnds s = 0)
    (h : ∀ s, x.Ends s fun answer _ => answer ≠ .error .endOfStream) : Accounts x := by
  intro s
  refine (h s).mono ?_
  intro answer t hne
  exact .of_ne (by rw [hzero s]; exact Nat.zero_le _) hne

instance : FalseEnds Empty where
  falseEnds := nofun

instance : FalseEnds MemorySource where
  falseEnds _ := 0

instance : FalseEnds MemorySink where
  falseEnds _ := 0

instance : FalseEnds GrowingSink where
  falseEnds _ := 0

instance : FalseEnds HashingSink where
  falseEnds _ := 0

instance : AccountedSource Empty where
  close := nofun
  fill := nofun

instance : AccountedSink Empty where
  close := nofun
  flush := nofun
  drain := nofun
  writeU8 _ := nofun

instance : AccountedSource MemorySource where
  close _ := .ok (Nat.le_refl _)
  fill := by
    refine .of_ne (fun _ => rfl) ?_
    intro p
    obtain ⟨s, r⟩ := p
    change MemorySource.copyInto.Ends (s, r) _
    cases hclosed : s.closed with
    | true =>
      rw [MemorySource.ends_copyInto_of_closed hclosed]
      nofun
    | false =>
      cases hreadOnly : r.readOnly with
      | false =>
        rw [MemorySource.ends_copyInto hclosed hreadOnly]
        nofun
      | true =>
        rw [MemorySource.ends_copyInto_of_readOnly hclosed hreadOnly]
        nofun

instance : AccountedSink MemorySink where
  close _ := .ok (Nat.le_refl _)
  flush := accounts_pure ()
  drain := by
    refine .of_ne (fun _ => rfl) ?_
    intro p
    obtain ⟨⟨data, position, closed⟩, r⟩ := p
    cases closed <;> nofun
  writeU8 _ _ := Nat.zero_le _

instance : AccountedSink GrowingSink where
  close _ := .ok (Nat.le_refl _)
  flush := accounts_pure ()
  drain := by
    refine .of_ne (fun _ => rfl) ?_
    intro p
    obtain ⟨⟨bytes, closed⟩, r⟩ := p
    cases closed <;> nofun
  writeU8 _ _ := Nat.zero_le _

instance : AccountedSink HashingSink where
  close _ := .ok (Nat.le_refl _)
  flush := accounts_pure ()
  drain := by
    refine .of_ne (fun _ => rfl) ?_
    intro p
    obtain ⟨⟨algorithm, state, count, closed⟩, r⟩ := p
    cases closed <;> nofun
  writeU8 _ _ := Nat.zero_le _

/-! ## Devices -/

instance : FalseEnds (Watched δ) where
  falseEnds := Watched.falseEnds

theorem lt_add_tally {kinds : List IoKind} {e : IoError} (h : e.kind ∈ kinds) (n : Nat) :
    n < n + tally kinds (.error e : Except IoError α) := by
  rw [tally, if_pos h]
  exact Nat.lt_succ_self n

/-- A call of a device raises no end itself, and its errors of the given kind are counted. -/
def Tallies (kind : IoKind) (once : Action (Watched δ × Region) (Except IoError Nat)) : Prop :=
  ∀ w r, once.Ends (w, r) fun answer p =>
    w.falseEnds ≤ p.1.falseEnds ∧ answer ≠ .error .endOfStream ∧
      ∀ e, answer = .ok (.error e) → e.kind = kind → w.falseEnds < p.1.falseEnds

/-- One turn of a loop around such a call, if the loop puts up with all errors that stand for
an end but those that are counted. -/
theorem accounts_turn {kind expected : IoKind}
    {once : Action (Watched δ × Region) (Except IoError Nat)} (honce : Tallies kind once)
    (hkinds : ∀ {e : IoError}, .ofIo e = Fault.endOfStream → e.kind ≠ expected → e.kind = kind) :
    Accounts (do
      if ← gets fun (p : Watched δ × Region) => p.2.hasRemaining then
        match ← once with
        | .ok 0 => pure (some ())
        | .ok _ => pure none
        | .error e =>
          if e.kind = .interrupted then pure none
          else if e.kind = expected then pure (some ())
          else fail (.ofIo e)
      else
        pure (some ()) : Action (Watched δ × Region) (Option Unit)) := by
  intro p
  rw [ends_gets_bind]
  by_cases hroom : p.2.hasRemaining = true
  · rw [if_pos hroom, ends_bind]
    refine (honce p.1 p.2).mono ?_
    intro answer q hends
    obtain ⟨hle, hne, hfalse⟩ := hends
    rcases answer with fault | e | _ | count
    · exact .of_ne hle fun h => hne (by cases h; rfl)
    · by_cases hinterrupted : e.kind = .interrupted
      · simp only [hinterrupted, if_true]
        exact .ok hle
      simp only [hinterrupted, if_false]
      by_cases hend : e.kind = expected
      · rw [if_pos hend]
        exact .ok hle
      · rw [if_neg hend]
        exact ⟨hle, fun h => hfalse e rfl (hkinds (Except.error.inj h) hend)⟩
    · exact .ok hle
    · exact .ok hle
  · rw [if_neg hroom]
    exact .ok (Nat.le_refl _)

namespace InputDevice

variable [InputDevice δ]

theorem tallies_readOnce : Tallies .writeZero (readOnce (δ := Watched δ)) := by
  intro w r
  rw [readOnce, ends_bind, ends_onSecond]
  cases hreadOnly : r.readOnly with
  | true =>
    simp [Ends, Region.requireWritable, hreadOnly]
  | false =>
    rw [Region.ends_requireWritable hreadOnly]
    simp only [ends_gets_bind]
    rw [ends_bind, ends_onFirst, ends_receive]
    rcases hread : read r.remaining w with ⟨e | given, w'⟩
    · obtain ⟨hgiven, rfl⟩ := Prod.mk.inj hread
      refine ⟨Nat.le_add_right .., by simp, ?_⟩
      intro e' he' hkind
      cases he'
      rw [hgiven]
      exact lt_add_tally (by rw [hkind]; decide) _
    · obtain ⟨-, rfl⟩ := Prod.mk.inj hread
      simp only [Region.putSlice, ends_bind, ends_onSecond, Region.ends_putFrom hreadOnly]
      exact ⟨Nat.le_add_right .., by simp, by simp⟩

/-- A fill from a device raises the end of the stream only for a false end. -/
theorem accounts_readSome : Accounts (readSome : Action (Watched δ × Region) Unit) := by
  refine (accounts_gets _).bind fun turns => .repeatUntil ?_ (accounts_pure ()) _
  exact accounts_turn tallies_readOnce fun h => (Fault.ofIo_eq_endOfStream h).resolve_left

end InputDevice

namespace OutputDevice

variable [OutputDevice δ]

theorem ends_pushOut (d : δ) (Q : Except Fault Unit → δ → Prop) :
    pushOut.Ends d Q ↔ Q ((flush d).1.mapError .ofIo) (flush d).2 := Iff.rfl

theorem tallies_writeOnce : Tallies .unexpectedEof (writeOnce (δ := Watched δ)) := by
  intro w r
  rw [ends_writeOnce]
  rcases hwrite : write r.window w with ⟨e | taken, w'⟩
  · obtain ⟨htaken, rfl⟩ := Prod.mk.inj hwrite
    refine ⟨Nat.le_add_right .., nofun, ?_⟩
    intro e' he' hkind
    cases he'
    rw [htaken]
    exact lt_add_tally (by rw [hkind]; decide) _
  · obtain ⟨-, rfl⟩ := Prod.mk.inj hwrite
    exact ⟨Nat.le_add_right .., nofun, nofun⟩

/-- A drain into a device raises the end of the stream only for a false end. -/
theorem accounts_writeSome : Accounts (writeSome : Action (Watched δ × Region) Unit) := by
  refine (accounts_gets _).bind fun turns => .repeatUntil ?_ (accounts_pure ()) _
  exact accounts_turn tallies_writeOnce fun h => (Fault.ofIo_eq_endOfStream h).resolve_right

/-- A write that may not come short lowers no count. -/
theorem counts_writeAll : Counts (writeAll : Action (Watched δ × Region) Unit) := by
  refine (accounts_gets _).counts.bind fun turns => .repeatUntil ?_ (accounts_pure ()).counts _
  refine (accounts_gets _).counts.bind fun more => ?_
  cases more with
  | false => exact (accounts_pure _).counts
  | true =>
    refine Counts.bind (fun p => (tallies_writeOnce p.1 p.2).1) fun answer => ?_
    rcases answer with e | _ | count
    · dsimp only
      split
      · exact (accounts_pure _).counts
      · exact fun _ => Nat.le_refl _
    · exact fun _ => Nat.le_refl _
    · exact (accounts_pure _).counts

/-- A flush raises the end of the stream only for a false end. -/
theorem accounts_pushOut : Accounts (pushOut : Action (Watched δ) Unit) := by
  intro w
  rw [ends_pushOut]
  rcases hflush : flush w with ⟨e | u, w'⟩
  · obtain ⟨hanswer, rfl⟩ := Prod.mk.inj hflush
    have hfailed : (flush w.device).1 = .error e := hanswer
    refine ⟨Nat.le_add_right .., fun h => ?_⟩
    change w.falseEnds < w.falseEnds + tally _ (flush w.device).1
    rw [hfailed]
    refine lt_add_tally ?_ _
    rcases Fault.ofIo_eq_endOfStream (Except.error.inj h) with hkind | hkind
    · rw [hkind]
      decide
    · rw [hkind]
      decide
  · obtain ⟨-, rfl⟩ := Prod.mk.inj hflush
    exact .ok (Nat.le_add_right ..)

end OutputDevice

section Device

instance [FalseEnds δ] : FalseEnds (DeviceSource δ) where
  falseEnds s := falseEnds s.device

instance [FalseEnds δ] : FalseEnds (DeviceSink δ) where
  falseEnds s := falseEnds s.device

instance [InputDevice δ] : AccountedSource (DeviceSource (Watched δ)) where
  close _ := .ok (Nat.le_refl _)
  fill := by
    intro p
    obtain ⟨⟨device, closed⟩, r⟩ := p
    cases closed with
    | false => exact InputDevice.accounts_readSome (device, r)
    | true => exact .of_ne (Nat.le_refl _) nofun

instance [OutputDevice δ] : AccountedSink (DeviceSink (Watched δ)) where
  close := by
    intro s
    obtain ⟨device, closed⟩ := s
    cases closed with
    | false => exact OutputDevice.accounts_pushOut device
    | true => exact .ok (Nat.le_refl _)
  flush := by
    intro s
    obtain ⟨device, closed⟩ := s
    cases closed with
    | false => exact OutputDevice.accounts_pushOut device
    | true => exact .of_ne (Nat.le_refl _) nofun
  drain := by
    intro p
    obtain ⟨⟨device, closed⟩, r⟩ := p
    cases closed with
    | false => exact OutputDevice.accounts_writeSome (device, r)
    | true => exact .of_ne (Nat.le_refl _) nofun
  writeU8 v := by
    intro s
    obtain ⟨device, closed⟩ := s
    change (DeviceSink.writeBytes _).Ends _ _
    simp only [DeviceSink.writeBytes, bind_pure_comp, ends_map, ends_alongside]
    cases closed with
    | false => exact OutputDevice.counts_writeAll (device, _)
    | true => exact Nat.le_refl _

end Device

section Endpoints

instance [FalseEnds D] [FalseEnds S] : FalseEnds (SourceEnd D S) where
  falseEnds
    | .memory s => falseEnds s
    | .device s => falseEnds s
    | .outside s => falseEnds s

instance [FalseEnds E] [FalseEnds S] : FalseEnds (SinkEnd E S) where
  falseEnds
    | .memory s => falseEnds s
    | .growing s => falseEnds s
    | .hashing s => falseEnds s
    | .device s => falseEnds s
    | .outside s => falseEnds s

instance [InputDevice D] [Source S] [FalseEnds S] [AccountedSource S] :
    AccountedSource (SourceEnd (Watched D) S) where
  close
    | .memory s => AccountedSource.close s
    | .device s => AccountedSource.close s
    | .outside s => AccountedSource.close s
  fill
    | (.memory s, r) => AccountedSource.fill (s, r)
    | (.device s, r) => AccountedSource.fill (s, r)
    | (.outside s, r) => AccountedSource.fill (s, r)

instance [OutputDevice E] [Sink S] [FalseEnds S] [AccountedSink S] :
    AccountedSink (SinkEnd (Watched E) S) where
  close
    | .memory s => AccountedSink.close s
    | .growing s => AccountedSink.close s
    | .hashing s => AccountedSink.close s
    | .device s => AccountedSink.close s
    | .outside s => AccountedSink.close s
  flush
    | .memory s => AccountedSink.flush s
    | .growing s => AccountedSink.flush s
    | .hashing s => AccountedSink.flush s
    | .device s => AccountedSink.flush s
    | .outside s => AccountedSink.flush s
  drain
    | (.memory s, r) => AccountedSink.drain (s, r)
    | (.growing s, r) => AccountedSink.drain (s, r)
    | (.hashing s, r) => AccountedSink.drain (s, r)
    | (.device s, r) => AccountedSink.drain (s, r)
    | (.outside s, r) => AccountedSink.drain (s, r)
  writeU8 v := fun
    | .memory s => AccountedSink.writeU8 v s
    | .growing s => AccountedSink.writeU8 v s
    | .hashing s => AccountedSink.writeU8 v s
    | .device s => AccountedSink.writeU8 v s
    | .outside s => AccountedSink.writeU8 v s

end Endpoints

end ByteFlow
