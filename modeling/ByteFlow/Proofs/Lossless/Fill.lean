import ByteFlow.Proofs.Lossless.Basic
import ByteFlow.Proofs.Meter.Recorded
import ByteFlow.Proofs.Quota.Chain
import ByteFlow.Proofs.Quota.Endpoint

/-!
# No byte is lost on the way into a region

A fill may fail anywhere: inside a quota that has narrowed the window, on the way from one member
of a chain to the next, or in a device that has given some bytes already.  Whatever it answers,
the region shows what came from the endpoints, and is otherwise as it was.  A region that only
gives bytes is refused before any endpoint is asked.

So whoever reads on after a failure, byte by byte or region by region, has all of the bytes.

## Main definitions

* `Spares`, `SparingSource` — fills that have no use for a region that only gives bytes.
* `Read`, `Read.performAll` — reads one after the other, and the bytes that they delivered.
* `Tree.fill_lossless` — what a fill of any tree leaves, and what a run of reads delivers.
-/

namespace ByteFlow

open ByteFlow.Action

variable {P L D S σ : Type}

/-! ## Regions that only give bytes -/

section Spares

variable [Meter σ]

/-- Nothing goes through for a region that only gives bytes, and it is left as it is. -/
def Spares (fill : Action (σ × Region) Unit) : Prop :=
  ∀ (s : σ) (r : Region), r.WellFormed → r.readOnly = true →
    fill.Ends (s, r) fun _ p => Moved s [] p.1 ∧ p.2 = r

/-- A source whose fill has no use for a region that only gives bytes. -/
class SparingSource (σ : Type) [Source σ] [Meter σ] : Prop where
  fill : Spares (Source.fill : Action (σ × Region) Unit)

end Spares

theorem Region.ends_requireWritable_of_readOnly {r : Region} (h : r.readOnly = true)
    (Q : Except Fault Unit → Region → Prop) :
    requireWritable.Ends r Q ↔ Q (.error (.misuse .readOnlyRegion)) r := by
  simp [Ends, requireWritable, h]

/-! ### Endpoints -/

instance : SparingSource MemorySource where
  fill s r _ hreadOnly := by
    change MemorySource.copyInto.Ends (s, r) _
    cases hclosed : s.closed with
    | true =>
      rw [MemorySource.ends_copyInto_of_closed hclosed]
      exact ⟨Meter.refl s, rfl⟩
    | false =>
      rw [MemorySource.ends_copyInto_of_readOnly hclosed hreadOnly]
      exact ⟨Meter.refl s, rfl⟩

/-- The region is looked at before the device is asked. -/
theorem InputDevice.spares_readSome [InputDevice D] : @Spares D (meter D) readSome := by
  let _ := meter D
  intro d r _ hreadOnly
  rw [readSome, readLoop, ends_gets_bind, ends_repeatUntil_succ, ends_gets_bind]
  by_cases hroom : r.hasRemaining = true
  · rw [if_pos hroom, readOnce, ends_bind, ends_bind, ends_onSecond,
      Region.ends_requireWritable_of_readOnly hreadOnly]
    exact ⟨Meter.refl d, rfl⟩
  · rw [if_neg hroom]
    exact ⟨Meter.refl d, rfl⟩

instance [InputDevice D] : SparingSource (DeviceSource D) where
  fill := by
    intro s r hr hreadOnly
    rcases s with ⟨d, _ | _⟩
    · exact InputDevice.spares_readSome d r hr hreadOnly
    · exact ⟨Meter.refl _, rfl⟩

theorem Bytewise.spares_fill [Meter σ] (next : Action σ UInt8) : Spares (fill next) := by
  intro s r _ hreadOnly
  rw [fill, ends_bind, ends_onSecond, Region.ends_requireWritable_of_readOnly hreadOnly]
  exact ⟨Meter.refl s, rfl⟩

theorem Source.spares_fill [Source S] [PlainSource S] : @Spares S (meter S) fill := by
  rw [PlainSource.fill_eq]
  let _ := meter S
  exact Bytewise.spares_fill _

instance [InputDevice D] [Source S] [PlainSource S] : SparingSource (SourceEnd D S) where
  fill
    | .memory s => SparingSource.fill s
    | .device s => SparingSource.fill s
    | .outside s => Source.spares_fill s

/-! ### Layers -/

section Layers

variable [Meter σ]

/-- The window is widened again, whatever it was narrowed for. -/
theorem Quota.ends_clipped_spared {bulk : Action (σ × Region) Unit} {q : Quota σ} {r : Region}
    (hr : r.WellFormed) (h : bulk.Ends (q.inner, r.narrowed q.remaining) fun _ p =>
      Moved q.inner [] p.1 ∧ p.2 = r.narrowed q.remaining) :
    (clipped bulk).Ends (q, r) fun _ p => Moved q [] p.1 ∧ p.2 = r := by
  rw [ends_clipped]
  by_cases hzero : q.remaining = 0
  · rw [if_pos hzero]
    exact ⟨Meter.refl q, rfl⟩
  rw [if_neg hzero]
  refine h.mono ?_
  rintro answer ⟨s, _⟩ ⟨hmoved, rfl⟩
  have hposition := Region.position_narrowed hr q.remaining
  refine ⟨⟨hmoved, ?_⟩, ?_⟩
  · simp only [hposition, List.length_nil]
    omega
  · have hback : ((r.narrowed q.remaining).receive []).setLimit r.limit = r.receive [] :=
      Region.setLimit_receive_narrowed hr (Nat.zero_le _)
    rwa [Region.receive_nil, Region.receive_nil] at hback

variable [Source σ] [SparingSource σ]

instance : SparingSource (Quota σ) where
  fill q _ hr hreadOnly :=
    Quota.ends_clipped_spared hr (SparingSource.fill q.inner _ (hr.narrowed _) hreadOnly)

instance [ClosePolicy P σ] : SparingSource (Closing P σ) where
  fill c r hr hreadOnly :=
    Closing.ends_whenOpenWith_of ⟨Meter.refl c, rfl⟩ (SparingSource.fill c.inner r hr hreadOnly)

instance : SparingSource (Traced σ) where
  fill t := SparingSource.fill t.inner

instance : SparingSource (Relay σ) where
  fill t := SparingSource.fill t.inner

/-- A member that is passed over lets nothing through either. -/
instance [ClosePolicy P σ] [QuietPolicy P σ] : SparingSource (Chain P σ) where
  fill := by
    intro c r hr hreadOnly
    change (Chain.spread (pure ()) Source.fill).Ends (c, r) _
    refine Chain.ends_spread_of_trans (I := fun r => r.WellFormed ∧ r.readOnly = true)
      (R := fun c r p => Moved c [] p.1 ∧ p.2 = r) (fun c r => ⟨Meter.refl c, rfl⟩) ?_ ?_ ?_ c
      ⟨hr, hreadOnly⟩
    · rintro c r d q p _ ⟨hd, rfl⟩ ⟨hp, rfl⟩
      exact ⟨Meter.trans hd hp, rfl⟩
    · rintro left m rest policy closed r ⟨hr, hreadOnly⟩
      refine (SparingSource.fill m r hr hreadOnly).mono ?_
      rintro answer ⟨m', _⟩ ⟨hm, rfl⟩
      exact ⟨⟨Chain.moved_active hm, rfl⟩, hr, hreadOnly⟩
    · intro c m rest r hahead
      refine (Chain.ends_leave_of_quiet (quiet_pure ()) hahead).mono ?_
      rintro moved d ⟨hd, hrest⟩
      exact ⟨⟨hd, rfl⟩, hrest⟩

instance [Source L] [Meter L] [SparingSource L] [ClosePolicy P σ] [QuietPolicy P σ] :
    SparingSource (Layer P L σ) where
  fill
    | .endpoint s => SparingSource.fill s
    | .quota s => SparingSource.fill s
    | .closing s => SparingSource.fill s
    | .chain s => SparingSource.fill s
    | .traced s => SparingSource.fill s
    | .relay s => SparingSource.fill s

end Layers

instance Tree.instSparingSource [Source L] [Meter L] [MeteredSource L] [SparingSource L] :
    (n : Nat) → SparingSource (Tree StandardPolicy L n)
  | 0 => ⟨fun s => Empty.elim s⟩
  | n + 1 =>
    have := instSparingSource n
    inferInstanceAs (SparingSource (Layer StandardPolicy L (Tree StandardPolicy L n)))

/-! ## Any fill -/

section Fills

variable [Source σ] [Meter σ] [MeteredSource σ] [SparingSource σ]

/-- Whatever region it is given, a fill brings into it what goes through. -/
theorem Source.ends_fill_received (s : σ) {r : Region} (hr : r.WellFormed) :
    (fill : Action (σ × Region) Unit).Ends (s, r) fun _ p =>
      ∃ bs, Moved s bs p.1 ∧ r.Received bs p.2 ∧ (r.readOnly = true → bs = [] ∧ p.2 = r) := by
  cases hreadOnly : r.readOnly with
  | false =>
    refine (MeteredSource.fill s r ⟨hr, hreadOnly⟩).mono ?_
    rintro answer ⟨t, _⟩ ⟨bs, hbs, hmoved, rfl⟩
    exact ⟨bs, hmoved, hr.received hbs, by simp⟩
  | true =>
    have hreceived : r.Received [] (r.receive []) := hr.received (Nat.zero_le _)
    rw [Region.receive_nil] at hreceived
    refine (SparingSource.fill s r hr hreadOnly).mono ?_
    rintro answer ⟨t, _⟩ ⟨hmoved, rfl⟩
    exact ⟨[], hmoved, hreceived, fun _ => ⟨rfl, rfl⟩⟩

end Fills

/-! ## Reads one after the other -/

/-- A read by somebody who goes on whatever the answer is.  The region may be any, one that was
filled before, for example. -/
inductive Read where
  | byte
  | fill (region : Region) (wellFormed : region.WellFormed)

namespace Read

/-- The bytes that a read delivers: the one that it answered, or those that it moved the window
of its region past. -/
def perform [Source σ] : Read → Action σ (List UInt8)
  | byte => do
    match ← attempt Source.readU8 with
    | .ok b => pure [b]
    | .error _ => pure []
  | fill region _ => do
    let (_, after) ← alongside region (attempt Source.fill)
    pure (after.between region.position after.position)

/-- The bytes that reads in a row deliver, whatever fails on the way. -/
def performAll [Source σ] : List Read → Action σ (List UInt8)
  | [] => pure []
  | read :: others => do
    let bs ← read.perform
    let more ← performAll others
    pure (bs ++ more)

variable [Source σ] [Meter σ] [MeteredSource σ] [SparingSource σ] [CandidSource σ]

/-- A read delivers what went through, whether or not it failed. -/
theorem ends_perform (read : Read) (s : σ) :
    read.perform.Ends s fun answer t => ∃ bs, answer = .ok bs ∧ Moved s bs t := by
  cases read with
  | byte =>
    rw [perform, ends_attempt_bind]
    refine (CandidSource.readU8 s trivial).mono ?_
    rintro answer t ⟨bs, hmoved, htold⟩
    cases answer with
    | error fault =>
      obtain rfl := List.length_eq_zero_iff.1 (Nat.lt_one_iff.1 htold)
      exact ⟨[], rfl, hmoved⟩
    | ok b =>
      obtain ⟨b, rfl⟩ := List.length_eq_one_iff.1 htold.1
      obtain rfl := htold.2
      exact ⟨_, rfl, hmoved⟩
  | fill region wellFormed =>
    simp only [perform, bind_pure_comp, ends_map, ends_alongside, ends_attempt]
    refine (Source.ends_fill_received s wellFormed).mono ?_
    rintro answer p ⟨bs, hmoved, hreceived, -⟩
    exact ⟨bs, congrArg _ hreceived.between, hmoved⟩

theorem ends_performAll (reads : List Read) (s : σ) :
    (performAll reads).Ends s fun answer t => ∃ bs, answer = .ok bs ∧ Moved s bs t := by
  induction reads generalizing s with
  | nil => exact ⟨[], rfl, Meter.refl s⟩
  | cons read others ih =>
    simp only [performAll, bind_pure_comp, ends_bind]
    refine (read.ends_perform s).mono ?_
    rintro answer t ⟨bs, rfl, hmoved⟩
    simp only [ends_map]
    refine (ih t).mono ?_
    rintro answer u ⟨more, rfl, hmoved'⟩
    exact ⟨bs ++ more, rfl, Meter.trans hmoved hmoved'⟩

end Read

/-! ## Trees -/

instance [Source S] [RigidSource S] : RigidSource (Recorded S) where
  bound_readU8 s := by
    have hinner : ((Recorded.listen Source.readU8).run s).state.inner =
        ((Source.readU8 : Action S UInt8).run s.inner).state := by
      simp only [Recorded.listen, Outcome.mapState]
      split <;> rfl
    change Source.bound ((Recorded.listen Source.readU8).run s).state.inner = _
    rw [hinner]
    exact RigidSource.bound_readU8 s.inner
  bound_close s := RigidSource.bound_close s.inner

namespace Tree

/-- Whatever a fill of a tree answers, its region differs from the one it was given in the bytes
that it moved the window past, and these are the bytes that crossed the tree.  If the region
only gives bytes, there are none and it is as it was.  So the bytes that reads in a row deliver,
whatever fails on the way, are those that crossed the tree meanwhile. -/
theorem fill_lossless [InputDevice D] [Source S] [PlainSource S] [RigidSource S] {n : Nat}
    (t : Tree StandardPolicy (SourceEnd D S) n) :
    (∀ r : Region, r.WellFormed →
      (Source.fill : Action (Tree StandardPolicy (SourceEnd D S) n × Region) Unit).Ends (t, r)
        fun _ p => ∃ bs, t.Crossed bs p.1 ∧ r.Received bs p.2 ∧
          (r.readOnly = true → bs = [] ∧ p.2 = r)) ∧
    ∀ reads, (Read.performAll reads).Ends t fun answer u =>
      ∃ bs, answer = .ok bs ∧ t.Crossed bs u := by
  constructor
  · intro r hr
    refine (Source.ends_fill_received t hr).mono ?_
    rintro answer p ⟨bs, hmoved, hreceived⟩
    exact ⟨bs, crossed_of_moved hmoved, hreceived⟩
  · intro reads
    refine (Read.ends_performAll reads t).mono ?_
    rintro answer u ⟨bs, rfl, hmoved⟩
    exact ⟨bs, rfl, crossed_of_moved hmoved⟩

/-- The quota of the first member is used up in the middle of the window, and the device of the
second one breaks off after its first byte.  A region that only gives bytes comes to nothing, and
reads that go on after the failures have all bytes up to the last one. -/
theorem fill_lossless_of_faults :
    let T := Tree StandardPolicy (SourceEnd (Recorded ScriptedInput) (Recorded FaultySource)) 4
    let broken : IoError := ⟨.brokenPipe, "broken"⟩
    let script := [.data (Bytes.ofList [4]), .fault broken, .data (Bytes.ofList [5])]
    let t : T := Layer.quota ⟨Layer.chain (.new .close
      [Layer.quota ⟨Layer.endpoint (.memory { data := Bytes.ofList [1, 2, 3] }), 2⟩,
        Layer.endpoint (.device { device := { inner := ⟨script⟩ } }),
        Layer.endpoint (.outside { inner :=
          { data := Bytes.ofList [6, 7], traps := [⟨1, .corrupt .loneSurrogate⟩] } })]), 10⟩
    let r := Region.allocate 5 .direct
    let sealed := Region.wrapReadOnly (Bytes.ofList [0, 0])
    let fill : Action (T × Region) Unit := Source.fill
    let again := Read.fill (.allocate 1 .indirect) (Region.writable_allocate ..).toWellFormed
    let reads := [.fill r (Region.writable_allocate ..).toWellFormed, .byte, .byte, again, again]
    ((fill.run (t, r)).answer = .error (.io broken) ∧
      (∀ bs, t.Crossed bs (fill.run (t, r)).state.1 ↔ bs = [1, 2, 4]) ∧
      r.Received [1, 2, 4] (fill.run (t, r)).state.2) ∧
    (t.Crossed [] (fill.run (t, sealed)).state.1 ∧ (fill.run (t, sealed)).state.2 = sealed) ∧
    ∀ bs, t.Crossed bs ((Read.performAll reads).run t).state ↔ bs = [1, 2, 4, 5, 6, 7] := by
  intro T broken script t r sealed fill again reads
  obtain ⟨hfill, hreads⟩ := fill_lossless t
  have hanswer : (fill.run (t, r)).answer = .error (.io broken) := by decide +kernel
  have hbytes : (fill.run (t, r)).state.2.between r.position
      (fill.run (t, r)).state.2.position = [1, 2, 4] := by decide +kernel
  have hall : ((Read.performAll reads).run t).answer = .ok [1, 2, 4, 5, 6, 7] := by
    decide +kernel
  have hfilled := hfill r (Region.writable_allocate ..).toWellFormed
  have hspared := hfill sealed (Region.wellFormed_wrapReadOnly _)
  have hread := hreads reads
  -- what the runs leave is known by now, and should not be computed again
  rw [Ends] at hfilled hspared hread
  generalize fill.run (t, r) = filled at hanswer hbytes hfilled ⊢
  generalize fill.run (t, sealed) = spared at hspared ⊢
  generalize (Read.performAll reads).run t = read at hall hread ⊢
  obtain ⟨bs, hcrossed, hreceived, -⟩ := hfilled
  obtain ⟨none, hnone, -, hsealed⟩ := hspared
  obtain ⟨rfl, hregion⟩ := hsealed rfl
  obtain ⟨all, hok, hcrossedAll⟩ := hread
  obtain rfl := hreceived.between.symm.trans hbytes
  obtain rfl := Except.ok.inj (hok.symm.trans hall)
  exact ⟨⟨hanswer, hcrossed.iff, hreceived⟩, ⟨hnone, hregion⟩, hcrossedAll.iff⟩

end Tree

end ByteFlow
