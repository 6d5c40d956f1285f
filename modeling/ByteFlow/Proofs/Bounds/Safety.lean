import ByteFlow.Proofs.Bounds.World
import ByteFlow.Scripted.Device

/-!
# Programs without hazards

After any program, whatever is looked at next lies within bounds, and so does all that the next
call looks at and subtracts on its way, however far it comes.

## Main definitions

* `World.Meets` — the hazards of looking at what is in hand.
* `Command.Rounds`, `Command.Singles` — the transfer that a call comes to.
* `Command.Meets` — the hazards of a call.
* `World.Safe` — all of them are averted, and what only gives bytes always gives the same.
* `World.safe_run` — this is so after every program.
-/

namespace ByteFlow

open ByteFlow.Action

variable {D E P Q : Type} {n : Nat} {hazard : Hazard}

/-- The hazards of looking at what is in hand. -/
inductive World.Meets (w : World P Q D E n) : Hazard → Prop
  | region {r : Region} {hazard : Hazard} : r ∈ w.regions → r.Meets hazard → Meets w hazard
  | source {s : Tree P (SourceEnd D Empty) n} {m : MemorySource} {hazard : Hazard} :
    s ∈ w.sources → .memory m ∈ s.leaves → m.Meets hazard → Meets w hazard
  | sink {t : Tree Q (SinkEnd E Empty) n} {m : MemorySink} {hazard : Hazard} :
    t ∈ w.sinks → .memory m ∈ t.leaves → m.Meets hazard → Meets w hazard

theorem World.InBounds.meets_averted {w : World P Q D E n} (h : w.InBounds)
    (hmeets : w.Meets hazard) : hazard.Averted := by
  cases hmeets with
  | region hr hmeets => exact (h.regions _ hr).averted hmeets
  | source hs hm hmeets => exact hmeets.averted (h.sources _ hs _ hm)
  | sink ht hm hmeets => exact hmeets.averted (h.sinks _ ht _ hm)

/-! ## Calls -/

namespace Command

variable [InputDevice D] [OutputDevice E] [SourcePolicy P] [SinkPolicy Q]

/-- The transfer in rounds that a call comes to. -/
inductive Rounds (w : World P Q D E n) : Command P Q D E n → Plan →
    Channel (Tree P (SourceEnd D Empty) n) (Tree Q (SinkEnd E Empty) n) → Prop
  | run {p i k s t placement} : w.sources[i]? = some s → w.sinks[k]? = some t →
    p.placement s t = some placement →
    Rounds w (.run p i k) p ⟨s, t, Region.allocate p.capacity placement⟩
  | runThrough {p i k j s t r} : w.sources[i]? = some s → w.sinks[k]? = some t →
    w.regions[j]? = some r → r.readOnly = false → Rounds w (.runThrough p i k j) p ⟨s, t, r⟩

/-- The transfer byte by byte that a call comes to. -/
inductive Singles (w : World P Q D E n) : Command P Q D E n → Plan →
    Tree P (SourceEnd D Empty) n → Tree Q (SinkEnd E Empty) n → Prop
  | run {p i k s t} : w.sources[i]? = some s → w.sinks[k]? = some t → p.placement s t = none →
    Singles w (.run p i k) p s t
  | runThrough {p i k j s t r} : w.sources[i]? = some s → w.sinks[k]? = some t →
    w.regions[j]? = some r → r.capacity = 0 → Singles w (.runThrough p i k j) p s t

/-- The hazards of a call, be its answer a fault or not. -/
inductive Meets (w : World P Q D E n) : Command P Q D E n → Hazard → Prop
  | fill {i j s r hazard} : w.sources[i]? = some s → w.regions[j]? = some r →
    s.FillMeets r hazard → Meets w (.fill i j) hazard
  | drain {k j t r hazard} : w.sinks[k]? = some t → w.regions[j]? = some r →
    t.DrainMeets r hazard → Meets w (.drain k j) hazard
  /-- All kinds of values but bytes are read byte by byte. -/
  | read {i kind s hazard} (count : Nat) : w.sources[i]? = some s →
    ((Bytewise.take Source.readU8 count).run s).state.ReadMeets hazard →
    Meets w (.read i kind) hazard
  | readBytes {i size s hazard} : w.sources[i]? = some s →
    s.FillMeets (Region.allocate size .indirect) hazard → Meets w (.read i (.bytes size)) hazard
  /-- All kinds of values but bytes are written byte by byte. -/
  | write {k v t hazard} (bytes : List UInt8) : w.sinks[k]? = some t →
    ((Bytewise.writeList Sink.writeU8 bytes).run t).state.WriteMeets hazard →
    Meets w (.write k v) hazard
  | writeBytes {k data t hazard} : w.sinks[k]? = some t →
    t.DrainMeets (Region.wrapReadOnly data) hazard → Meets w (.write k (.bytes data)) hazard
  | rounds {c p channel hazard} : Rounds w c p channel →
    p.BufferedMeets Tree.FillMeets Tree.DrainMeets channel hazard → Meets w c hazard
  | singles {c p s t hazard} : Singles w c p s t →
    p.UnbufferedMeets Tree.ReadMeets Tree.WriteMeets s t hazard → Meets w c hazard

section Averted

variable {w : World P Q D E n} (h : w.InBounds) {c : Command P Q D E n} {p : Plan}
include h

theorem Rounds.inBounds {channel : Channel (Tree P (SourceEnd D Empty) n)
    (Tree Q (SinkEnd E Empty) n)} (hrounds : Rounds w c p channel) :
    channel.source.All SourceEnd.InBounds ∧ channel.target.All SinkEnd.InBounds ∧
      channel.region.Writable := by
  cases hrounds with
  | run hs ht _ => exact ⟨h.source hs, h.sink ht, Region.writable_allocate ..⟩
  | runThrough hs ht hr hwritable => exact ⟨h.source hs, h.sink ht, h.region hr, hwritable⟩

theorem Singles.inBounds {s : Tree P (SourceEnd D Empty) n} {t : Tree Q (SinkEnd E Empty) n}
    (hsingles : Singles w c p s t) : s.All SourceEnd.InBounds ∧ t.All SinkEnd.InBounds := by
  cases hsingles with
  | run hs ht _ => exact ⟨h.source hs, h.sink ht⟩
  | runThrough hs ht _ _ => exact ⟨h.source hs, h.sink ht⟩

variable [LawfulSourcePolicy P] [LawfulSinkPolicy Q]

theorem Rounds.reckoned {channel : Channel (Tree P (SourceEnd D Empty) n)
    (Tree Q (SinkEnd E Empty) n)} (hrounds : Rounds w c p channel)
    {a : Channel (Tree P (SourceEnd D Empty) n) (Tree Q (SinkEnd E Empty) n) × Progress}
    (hvisits : Visits p.round (channel, ⟨0, 0⟩) a) : p.Reckoned a := by
  obtain ⟨hs, ht, hr⟩ := hrounds.inBounds h
  exact (Plan.inLoop_of_visits World.steady_source World.steady_sink hs ht hr.toWellFormed
    hr.readOnly_eq hvisits).reckoned World.steady_source World.steady_sink

theorem Meets.averted (hmeets : Meets w c hazard) : hazard.Averted := by
  cases hmeets with
  | fill hs hr hmeets => exact Tree.fill_averted (h.source hs) (h.region hr) hmeets
  | drain ht hr hmeets => exact Tree.drain_averted (h.sink ht) (h.region hr) hmeets
  | read count hs hmeets =>
    have htake : Keeps (Tree.All SourceEnd.InBounds)
        (Bytewise.take Source.readU8 count : Action (Tree P (SourceEnd D Empty) n) _) :=
      .of_alike (World.steady_source.readU8.alike.take count)
    exact Tree.read_averted (htake _ (h.source hs)) hmeets
  | readBytes hs hmeets =>
    exact Tree.fill_averted (h.source hs) (Region.writable_allocate ..).toWellFormed hmeets
  | write bytes ht hmeets =>
    have hwrite : Keeps (Tree.All SinkEnd.InBounds)
        (Bytewise.writeList Sink.writeU8 bytes : Action (Tree Q (SinkEnd E Empty) n) _) :=
      .of_alike (.forEach (fun b => (World.steady_sink.writeU8 b).alike) bytes)
    exact Tree.write_averted (hwrite _ (h.sink ht)) hmeets
  | writeBytes ht hmeets =>
    exact Tree.drain_averted (h.sink ht) (Region.wellFormed_wrapReadOnly _) hmeets
  | rounds hrounds hmeets =>
    obtain ⟨hs, ht, hr⟩ := hrounds.inBounds h
    exact Plan.buffered_averted World.steady_source World.steady_sink hs ht
      (fun hs hr hmeets => Tree.fill_averted hs hr hmeets)
      (fun ht hr hmeets => Tree.drain_averted ht hr hmeets) hr.toWellFormed hr.readOnly_eq hmeets
  | singles hsingles hmeets =>
    obtain ⟨hs, ht⟩ := hsingles.inBounds h
    exact Plan.unbuffered_averted World.steady_source World.steady_sink hs ht
      Tree.read_averted Tree.write_averted hmeets

end Averted

end Command

/-! ## Programs -/

namespace World

variable [InputDevice D] [Supply D] [OutputDevice E] [SourcePolicy P] [SinkPolicy Q]

/-- What a caller can rely on, whatever comes next. -/
structure Safe (w : World P Q D E n) : Prop where
  regions : ∀ r ∈ w.regions, r.position ≤ r.limit ∧ r.limit ≤ r.capacity
  sources : ∀ s ∈ w.sources, ∀ m, .memory m ∈ s.leaves → m.position ≤ m.data.size
  sinks : ∀ t ∈ w.sinks, ∀ m, .memory m ∈ t.leaves → m.position ≤ m.data.size
  /-- Looking at what is in hand. -/
  looks : ∀ hazard, w.Meets hazard → hazard.Averted
  /-- Any call that comes next, on all of its way. -/
  calls : ∀ c hazard, Command.Meets w c hazard → hazard.Averted
  /-- Every round of a transfer. -/
  rounds : ∀ c p channel a, Command.Rounds w c p channel → Visits p.round (channel, ⟨0, 0⟩) a →
    p.Reckoned a
  /-- Every turn of a transfer byte by byte. -/
  singles : ∀ c p s t q limit, Command.Singles w c p s t → Visits p.moveByte ((s, t), 0) q →
    p.limit = some limit → q.2 ≤ limit
  /-- Any number of calls that come next. -/
  readOnly : ∀ program (j : Nat) (r : Region), w.regions[j]? = some r → r.readOnly = true →
    ∃ q : Region, (w.steps program).regions[j]? = some q ∧ q.readOnly = true ∧ q.bytes = r.bytes

variable [LawfulSourcePolicy P] [LawfulSinkPolicy Q] {w : World P Q D E n}

theorem InBounds.safe (h : w.InBounds) : w.Safe where
  regions r hr := ⟨(h.regions r hr).position_le, (h.regions r hr).limit_le⟩
  sources s hs _ hm := h.sources s hs _ hm
  sinks t ht _ hm := h.sinks t ht _ hm
  looks _ hmeets := h.meets_averted hmeets
  calls _ _ hmeets := hmeets.averted h
  rounds _ _ _ _ hrounds hvisits := hrounds.reckoned h hvisits
  singles c p s t q limit hsingles hvisits hlimit := by
    obtain ⟨hs, ht⟩ := hsingles.inBounds h
    obtain ⟨-, -, hmoved⟩ := Plan.moved_le_of_visits steady_source steady_sink hs ht hvisits
    exact hmoved hlimit
  readOnly program j r hr hreadOnly := by
    obtain ⟨q, hq, hkept⟩ := (h.steps program).kept j r hr
    exact ⟨q, hq, hkept.readOnly_eq.trans hreadOnly, hkept.bytes_eq hreadOnly⟩

/-- Whatever a program calls, no window leaves its bytes and no position its array, nothing is
looked at that is not there, and nothing is subtracted from what is smaller. -/
theorem safe_run (program : List (Command P Q D E n)) : (run program).Safe :=
  (inBounds_run program).safe

/-- A region was drained into an array that is full by now.  The fill that comes next uses up a
quota of two, of which just as many are subtracted. -/
theorem safe_run_of_spent_quota :
    let source : Tree StandardPolicy (SourceEnd ScriptedInput Empty) 2 :=
      Layer.quota (Source.bounded 2 (Layer.endpoint (.memory ⟨Bytes.ofList [7, 8, 9], 0, false⟩)))
    let sink : Tree StandardPolicy (SinkEnd ScriptedOutput Empty) 2 :=
      Layer.endpoint (.memory ⟨Bytes.ofList [0], 0, false⟩)
    let w : World StandardPolicy StandardPolicy ScriptedInput ScriptedOutput 2 :=
      run [.makeSinks (.opening sink (List.forall_mem_singleton.2 rfl)), .allocate 4 .direct,
        .change 0 (.put 1), .change 0 .flip, .drain 0 0, .change 0 .clear,
        .makeSources (.opening source (List.forall_mem_singleton.2 rfl))]
    Command.Meets w (.fill 0 0) (.subtract 2 2) ∧ w.Safe := by
  intro source sink w
  have hshrunk : source.FillMeets ⟨Bytes.ofList [1, 0, 0, 0], false, .direct, 0, 4⟩
      (.subtract 2 2) :=
    ⟨1, (source, _), .self _, .shrunk (by decide)⟩
  exact ⟨.fill rfl rfl hshrunk, safe_run _⟩

end World

end ByteFlow
