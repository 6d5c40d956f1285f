import ByteFlow.Proofs.Bounds.Transfer

/-!
# Programs that stay in bounds

A program has regions, sources and sinks in hand, and makes one call after the other on them.  No
call leaves a window outside of its bytes or a position beyond the end of an array, and none writes
where bytes are only given.  What a call answers does not matter here, for any call may follow it.

## Main definitions

* `Region.Change` — what a caller does to a region.
* `Assembly` — how streams are opened, wrapped, joined and taken apart.
* `World`, `Command`, `World.step`, `World.run` — programs.
* `World.InBounds`, `World.Leads` — what holds after every call.
* `World.InBounds.step`, `World.InBounds.steps` — one call keeps it, and so do any number of calls.
-/

namespace ByteFlow

open ByteFlow.Action

variable {D E P Q L S σ : Type} {n : Nat}

/-! ## Regions -/

/-- What a caller does to a region. -/
inductive Region.Change where
  | clear
  | flip
  | setLimit (limit : Nat)
  | advance (count : Nat)
  | put (v : UInt8)
  | putSlice (src : Bytes)
  | stage (src : Bytes) (start : Nat)

namespace Region

variable {r : Region}

/-- The region after a change.  To go beyond the end of the window is no change. -/
def Change.apply : Change → Region → Region
  | clear, r => r.clear
  | flip, r => r.flip
  | setLimit limit, r => r.setLimit limit
  | advance count, r => (r.advance count).toOption.getD r
  | put v, r => ((Region.put v).run r).state
  | putSlice src, r => ((Region.putSlice src).run r).state
  | stage src start, r => ((Region.stage src start).run r).state

/-- Bytes are staged in the window, where there is room for them. -/
theorem size_staged (h : r.WellFormed) (src : Bytes) (start : Nat) :
    (r.bytes.overwrite r.position src start (min r.remaining (src.size - start))).size =
      r.capacity := by
  have h₁ := h.position_le
  have h₂ := h.limit_le
  rw [← Bytes.length_list, Bytes.list_overwrite]
  simp only [List.length_append, List.length_take, List.length_drop, Bytes.length_list, remaining,
    capacity] at *
  omega

theorem put_of_refused (h : r.remaining = 0 ∨ r.readOnly = true) (v : UInt8) :
    ((put v).run r).state = r := by
  by_cases hfull : r.remaining = 0
  · simp [put, hfull]
  · have hreadOnly := h.resolve_left hfull
    simp [put, hfull, hreadOnly]

theorem stage_of_readOnly (h : r.readOnly = true) (src : Bytes) (start : Nat) :
    ((stage src start).run r).state = r := by
  simp [stage, h]

section Keeps

variable (h : r.WellFormed)
include h

theorem put_kept (v : UInt8) : (put v).Ends r fun _ q => q.WellFormed ∧ r.Kept q := by
  by_cases hrefused : r.remaining = 0 ∨ r.readOnly = true
  · rw [Ends, put_of_refused hrefused]
    exact ⟨h, .refl r⟩
  · obtain ⟨hroom, hreadOnly⟩ := not_or.1 hrefused
    have hwritable : r.Writable := ⟨h, Bool.eq_false_iff.2 hreadOnly⟩
    have hfits : [v].length ≤ r.remaining := Nat.pos_of_ne_zero hroom
    have honward := hwritable.onward_receive hfits
    rw [ends_put hwritable hroom]
    exact ⟨honward.wellFormed h, honward.kept⟩

theorem putSlice_kept (src : Bytes) :
    (putSlice src).Ends r fun _ q => q.WellFormed ∧ r.Kept q := by
  rw [putSlice]
  cases hreadOnly : r.readOnly with
  | true =>
    rw [ends_putFrom_of_readOnly hreadOnly]
    exact ⟨h, .refl r⟩
  | false =>
    have hwritable : r.Writable := ⟨h, hreadOnly⟩
    have honward := hwritable.onward_receive (List.length_take_le _ (src.list.drop 0))
    rw [ends_putFrom hreadOnly]
    exact ⟨honward.wellFormed h, honward.kept⟩

/-- The window is not moved past what was staged. -/
theorem stage_kept (src : Bytes) (start : Nat) :
    (stage src start).Ends r fun _ q => q.WellFormed ∧ r.Kept q := by
  cases hreadOnly : r.readOnly with
  | true =>
    rw [Ends, stage_of_readOnly hreadOnly]
    exact ⟨h, .refl r⟩
  | false =>
    rw [ends_stage hreadOnly]
    refine ⟨⟨h.position_le, ?_⟩, .of_writable hreadOnly hreadOnly⟩
    rw [capacity, size_staged h]
    exact h.limit_le

/-- A caller cannot move the window out of the bytes, nor write where bytes are only given. -/
theorem Change.apply_kept (change : Change) :
    (change.apply r).WellFormed ∧ r.Kept (change.apply r) := by
  cases change with
  | clear => exact ⟨.clear r, rfl, fun _ => rfl⟩
  | flip => exact ⟨h.flip, rfl, fun _ => rfl⟩
  | setLimit limit => exact ⟨wellFormed_setLimit r limit, rfl, fun _ => rfl⟩
  | advance count =>
    by_cases hcount : count ≤ r.remaining
    · have hskip : (advance count).apply r = r.skip count := by
        simp [apply, Region.advance, hcount, Except.toOption]
      rw [hskip]
      exact ⟨h.skip hcount, (h.onward_skip hcount).kept⟩
    · have hrefused : (advance count).apply r = r := by
        simp [apply, Region.advance, hcount, Except.toOption]
      rw [hrefused]
      exact ⟨h, .refl r⟩
  | put v => exact put_kept h v
  | putSlice src => exact putSlice_kept h src
  | stage src start => exact stage_kept h src start

end Keeps

end Region

/-! ## Streams -/

/-- Nothing was read from an array so far. -/
def SourceEnd.Fresh : SourceEnd D S → Prop
  | .memory s => s.position = 0
  | .device _ => True
  | .outside _ => True

/-- Nothing was written to an array so far. -/
def SinkEnd.Fresh : SinkEnd D S → Prop
  | .memory s => s.position = 0
  | .growing _ => True
  | .hashing _ => True
  | .device _ => True
  | .outside _ => True

theorem SourceEnd.Fresh.inBounds {e : SourceEnd D S} (h : e.Fresh) : e.InBounds := by
  cases e with
  | memory s => exact Nat.le_trans (Nat.le_of_eq h) (Nat.zero_le _)
  | device _ | outside _ => trivial

theorem SinkEnd.Fresh.inBounds {e : SinkEnd D S} (h : e.Fresh) : e.InBounds := by
  cases e with
  | memory s => exact Nat.le_trans (Nat.le_of_eq h) (Nat.zero_le _)
  | growing _ | hashing _ | device _ | outside _ => trivial

/-- How streams are opened, wrapped, joined, taken apart and dropped: an endpoint of one of the
streams that are made is fresh, or was one of a stream at hand. -/
structure Assembly (P L : Type) (n : Nat) (Fresh : L → Prop) where
  assemble : List (Tree P L n) → List (Tree P L n)
  origin : ∀ ts, ∀ t ∈ assemble ts, ∀ e ∈ t.leaves, Fresh e ∨ ∃ u ∈ ts, e ∈ u.leaves

/-- One more stream is opened, and nothing was read from it or written to it so far. -/
def Assembly.opening {Fresh : L → Prop} (t : Tree P L n) (h : ∀ e ∈ t.leaves, Fresh e) :
    Assembly P L n Fresh where
  assemble ts := ts ++ [t]
  origin ts u hu e he := by
    rcases List.mem_append.1 hu with hmem | hmem
    · exact .inr ⟨u, hmem, he⟩
    · obtain rfl := List.mem_singleton.1 hmem
      exact .inl (h e he)

theorem Assembly.forall_all {Fresh J : L → Prop} (a : Assembly P L n Fresh)
    (hfresh : ∀ {e}, Fresh e → J e) {ts : List (Tree P L n)} (h : ∀ t ∈ ts, t.All J) :
    ∀ t ∈ a.assemble ts, t.All J := by
  intro t ht e he
  rcases a.origin ts t ht e he with hnew | ⟨u, hu, heu⟩
  · exact hfresh hnew
  · exact h u hu e heu

/-! ## Programs -/

/-- What a program has in hand. -/
structure World (P Q D E : Type) (n : Nat) where
  regions : List Region
  sources : List (Tree P (SourceEnd D Empty) n)
  sinks : List (Tree Q (SinkEnd E Empty) n)

/-- A call, with the places of what it is made on. -/
inductive Command (P Q D E : Type) (n : Nat) where
  | allocate (capacity : Nat) (placement : Placement)
  | wrap (bytes : Bytes)
  | wrapReadOnly (bytes : Bytes)
  | change (j : Nat) (change : Region.Change)
  | makeSources (a : Assembly P (SourceEnd D Empty) n SourceEnd.Fresh)
  | makeSinks (a : Assembly Q (SinkEnd E Empty) n SinkEnd.Fresh)
  | read (i : Nat) (kind : Kind)
  | closeSource (i : Nat)
  | write (k : Nat) (v : Value)
  | flush (k : Nat)
  | closeSink (k : Nat)
  | fill (i j : Nat)
  | drain (k j : Nat)
  | run (p : Plan) (i k : Nat)
  | runThrough (p : Plan) (i k j : Nat)

namespace World

variable [InputDevice D] [Supply D] [OutputDevice E] [SourcePolicy P] [SinkPolicy Q]

/-- The world with one more region. -/
def push (w : World P Q D E n) (r : Region) : World P Q D E n :=
  { w with regions := w.regions ++ [r] }

/-- The world after a region was changed. -/
def onRegion (w : World P Q D E n) (j : Nat) (change : Region.Change) : World P Q D E n :=
  match w.regions[j]? with
  | some r => { w with regions := w.regions.set j (change.apply r) }
  | none => w

/-- The world after an operation on a source. -/
def onSource (w : World P Q D E n) (i : Nat) (x : Action (Tree P (SourceEnd D Empty) n) σ) :
    World P Q D E n :=
  match w.sources[i]? with
  | some s => { w with sources := w.sources.set i (x.run s).state }
  | none => w

/-- The world after an operation on a sink. -/
def onSink (w : World P Q D E n) (k : Nat) (x : Action (Tree Q (SinkEnd E Empty) n) σ) :
    World P Q D E n :=
  match w.sinks[k]? with
  | some t => { w with sinks := w.sinks.set k (x.run t).state }
  | none => w

/-- The world after a region was filled from a source. -/
def filled (w : World P Q D E n) (i j : Nat) : World P Q D E n :=
  match w.sources[i]?, w.regions[j]? with
  | some s, some r =>
    let (s, r) := (Source.fill.run (s, r)).state
    { w with sources := w.sources.set i s, regions := w.regions.set j r }
  | _, _ => w

/-- The world after a region was drained into a sink. -/
def drained (w : World P Q D E n) (k j : Nat) : World P Q D E n :=
  match w.sinks[k]?, w.regions[j]? with
  | some t, some r =>
    let (t, r) := (Sink.drain.run (t, r)).state
    { w with sinks := w.sinks.set k t, regions := w.regions.set j r }
  | _, _ => w

/-- The world after a transfer. -/
def transferred (w : World P Q D E n) (p : Plan) (i k : Nat) : World P Q D E n :=
  match w.sources[i]?, w.sinks[k]? with
  | some s, some t =>
    let (s, t) := (p.run.run (s, t)).state
    { w with sources := w.sources.set i s, sinks := w.sinks.set k t }
  | _, _ => w

/-- The world after a transfer through one of its regions. -/
def transferredThrough (w : World P Q D E n) (p : Plan) (i k j : Nat) : World P Q D E n :=
  match w.sources[i]?, w.sinks[k]?, w.regions[j]? with
  | some s, some t, some r =>
    let ((s, t), r) := (p.runThrough.run ((s, t), r)).state
    { regions := w.regions.set j r, sources := w.sources.set i s, sinks := w.sinks.set k t }
  | _, _, _ => w

/-- The world after a call.  It stays as it is if there is nothing in one of the places. -/
def step (w : World P Q D E n) : Command P Q D E n → World P Q D E n
  | .allocate capacity placement => w.push (.allocate capacity placement)
  | .wrap bytes => w.push (.wrap bytes)
  | .wrapReadOnly bytes => w.push (.wrapReadOnly bytes)
  | .change j change => w.onRegion j change
  | .makeSources a => { w with sources := a.assemble w.sources }
  | .makeSinks a => { w with sinks := a.assemble w.sinks }
  | .read i kind => w.onSource i kind.read
  | .closeSource i => w.onSource i Closeable.close
  | .write k v => w.onSink k v.write
  | .flush k => w.onSink k Sink.flush
  | .closeSink k => w.onSink k Closeable.close
  | .fill i j => w.filled i j
  | .drain k j => w.drained k j
  | .run p i k => w.transferred p i k
  | .runThrough p i k j => w.transferredThrough p i k j

/-- The world after one call and then the others. -/
def steps (w : World P Q D E n) (program : List (Command P Q D E n)) : World P Q D E n :=
  program.foldl step w

/-- The world in which a program leaves what it has got hold of. -/
def run (program : List (Command P Q D E n)) : World P Q D E n := steps ⟨[], [], []⟩ program

/-! ## What a call keeps -/

/-- The window of every region lies inside its bytes, and every position inside its array. -/
structure InBounds (w : World P Q D E n) : Prop where
  regions : ∀ r ∈ w.regions, r.WellFormed
  sources : ∀ s ∈ w.sources, s.All SourceEnd.InBounds
  sinks : ∀ t ∈ w.sinks, t.All SinkEnd.InBounds

namespace InBounds

omit [InputDevice D] [Supply D] [OutputDevice E] [SourcePolicy P] [SinkPolicy Q]

variable {w : World P Q D E n} (h : w.InBounds) {i : Nat}
include h

theorem region {r : Region} (hr : w.regions[i]? = some r) : r.WellFormed :=
  h.regions r (List.mem_of_getElem? hr)

theorem source {s : Tree P (SourceEnd D Empty) n} (hs : w.sources[i]? = some s) :
    s.All SourceEnd.InBounds :=
  h.sources s (List.mem_of_getElem? hs)

theorem sink {t : Tree Q (SinkEnd E Empty) n} (ht : w.sinks[i]? = some t) :
    t.All SinkEnd.InBounds :=
  h.sinks t (List.mem_of_getElem? ht)

end InBounds

end World

/-- Every region is in its place still, and if it only gives bytes, it still gives the same. -/
def Region.AllKept (rs qs : List Region) : Prop :=
  ∀ (j : Nat) (r : Region), rs[j]? = some r → ∃ q, qs[j]? = some q ∧ r.Kept q

namespace Region.AllKept

variable {rs qs ps : List Region}

theorem refl (rs : List Region) : AllKept rs rs := fun _ r hr => ⟨r, hr, .refl r⟩

theorem trans (h : AllKept rs qs) (h' : AllKept qs ps) : AllKept rs ps := by
  intro j r hr
  obtain ⟨q, hq, hkept⟩ := h j r hr
  obtain ⟨p, hp, hkept'⟩ := h' j q hq
  exact ⟨p, hp, hkept.trans hkept'⟩

theorem append (rs more : List Region) : AllKept rs (rs ++ more) := by
  intro j r hr
  obtain ⟨hj, -⟩ := List.getElem?_eq_some_iff.1 hr
  exact ⟨r, (List.getElem?_append_left hj).trans hr, .refl r⟩

theorem set {j : Nat} {r q : Region} (hr : rs[j]? = some r) (hkept : r.Kept q) :
    AllKept rs (rs.set j q) := by
  intro i p hp
  obtain ⟨hj, -⟩ := List.getElem?_eq_some_iff.1 hr
  by_cases hij : j = i
  · subst hij
    obtain rfl : r = p := Option.some.inj (hr.symm.trans hp)
    exact ⟨q, List.getElem?_set_self hj, hkept⟩
  · exact ⟨p, (List.getElem?_set_ne hij).trans hp, .refl p⟩

end Region.AllKept

theorem forall_mem_set {I : σ → Prop} {ss : List σ} (h : ∀ s ∈ ss, I s) {s : σ} (hs : I s)
    (i : Nat) : ∀ t ∈ ss.set i s, I t := by
  intro t ht
  rcases List.mem_or_eq_of_mem_set ht with hmem | rfl
  · exact h t hmem
  · exact hs

namespace World

/-- From the one world to the other all stayed in bounds, and what only gives bytes still gives the
same. -/
structure Leads (w v : World P Q D E n) : Prop where
  inBounds : v.InBounds
  kept : Region.AllKept w.regions v.regions

section Leads

variable {w v u : World P Q D E n}

theorem Leads.refl (h : w.InBounds) : w.Leads w := ⟨h, .refl _⟩

theorem Leads.trans (h : w.Leads v) (h' : v.Leads u) : w.Leads u :=
  ⟨h'.inBounds, h.kept.trans h'.kept⟩

theorem InBounds.push (h : w.InBounds) {r : Region} (hr : r.WellFormed) : w.Leads (w.push r) := by
  refine ⟨⟨?_, h.sources, h.sinks⟩, .append w.regions [r]⟩
  exact List.forall_mem_append.2 ⟨h.regions, List.forall_mem_singleton.2 hr⟩

theorem InBounds.onRegion (h : w.InBounds) (j : Nat) (change : Region.Change) :
    w.Leads (w.onRegion j change) := by
  unfold World.onRegion
  split
  case h_1 r hregion =>
    obtain ⟨hr, hkept⟩ := Region.Change.apply_kept (h.region hregion) change
    exact ⟨⟨forall_mem_set h.regions hr j, h.sources, h.sinks⟩, .set hregion hkept⟩
  case h_2 => exact .refl h

theorem InBounds.onSource (h : w.InBounds) {x : Action (Tree P (SourceEnd D Empty) n) σ}
    (hx : Keeps (Tree.All SourceEnd.InBounds) x) (i : Nat) : w.Leads (w.onSource i x) := by
  unfold World.onSource
  split
  case h_1 s hsource =>
    have hs := hx s (h.source hsource)
    exact ⟨⟨h.regions, forall_mem_set h.sources hs i, h.sinks⟩, .refl _⟩
  case h_2 => exact .refl h

theorem InBounds.onSink (h : w.InBounds) {x : Action (Tree Q (SinkEnd E Empty) n) σ}
    (hx : Keeps (Tree.All SinkEnd.InBounds) x) (k : Nat) : w.Leads (w.onSink k x) := by
  unfold World.onSink
  split
  case h_1 t hsink =>
    have ht := hx t (h.sink hsink)
    exact ⟨⟨h.regions, h.sources, forall_mem_set h.sinks ht k⟩, .refl _⟩
  case h_2 => exact .refl h

end Leads

section Calls

variable [InputDevice D] [Supply D] [OutputDevice E] [SourcePolicy P] [SinkPolicy Q]
  [LawfulSourcePolicy P] [LawfulSinkPolicy Q] {w : World P Q D E n}

omit [Supply D] [OutputDevice E] [SinkPolicy Q] [LawfulSinkPolicy Q] in
theorem steady_source :
    Source.Steady (Tree.All SourceEnd.InBounds : Tree P (SourceEnd D Empty) n → Prop) :=
  Tree.steady_source SourceEnd.steady n

omit [InputDevice D] [Supply D] [SourcePolicy P] [LawfulSourcePolicy P] in
theorem steady_sink :
    Sink.Steady (Tree.All SinkEnd.InBounds : Tree Q (SinkEnd E Empty) n → Prop) :=
  Tree.steady_sink SinkEnd.steady n

omit [Supply D] [OutputDevice E] [SinkPolicy Q] [LawfulSinkPolicy Q] in
theorem InBounds.filled (h : w.InBounds) (i j : Nat) : w.Leads (w.filled i j) := by
  unfold World.filled
  split
  case h_1 s r hsource hregion =>
    have hr := h.region hregion
    obtain ⟨hs, honward⟩ := steady_source.fill.ends (h.source hsource) hr
    exact ⟨⟨forall_mem_set h.regions (honward.wellFormed hr) j, forall_mem_set h.sources hs i,
      h.sinks⟩, .set hregion honward.kept⟩
  case h_2 => exact .refl h

omit [InputDevice D] [Supply D] [SourcePolicy P] [LawfulSourcePolicy P] in
theorem InBounds.drained (h : w.InBounds) (k j : Nat) : w.Leads (w.drained k j) := by
  unfold World.drained
  split
  case h_1 t r hsink hregion =>
    have hr := h.region hregion
    obtain ⟨ht, honward⟩ := steady_sink.drain.ends (h.sink hsink) hr
    exact ⟨⟨forall_mem_set h.regions (honward.wellFormed hr) j, h.sources,
      forall_mem_set h.sinks ht k⟩, .set hregion honward.kept⟩
  case h_2 => exact .refl h

theorem InBounds.transferred (h : w.InBounds) (p : Plan) (i k : Nat) :
    w.Leads (w.transferred p i k) := by
  unfold World.transferred
  split
  case h_1 s t hsource hsink =>
    obtain ⟨hs, ht⟩ :=
      p.ends_run_inBounds steady_source steady_sink (h.source hsource) (h.sink hsink)
    exact ⟨⟨h.regions, forall_mem_set h.sources hs i, forall_mem_set h.sinks ht k⟩, .refl _⟩
  case h_2 => exact .refl h

theorem InBounds.transferredThrough (h : w.InBounds) (p : Plan) (i k j : Nat) :
    w.Leads (w.transferredThrough p i k j) := by
  unfold World.transferredThrough
  split
  case h_1 s t r hsource hsink hregion =>
    obtain ⟨⟨hs, ht⟩, hr, hkept⟩ := p.ends_runThrough_inBounds steady_source steady_sink
      (h.source hsource) (h.sink hsink) (h.region hregion)
    exact ⟨⟨forall_mem_set h.regions hr j, forall_mem_set h.sources hs i,
      forall_mem_set h.sinks ht k⟩, .set hregion hkept⟩
  case h_2 => exact .refl h

/-- One call. -/
theorem InBounds.step (h : w.InBounds) (c : Command P Q D E n) : w.Leads (w.step c) := by
  cases c with
  | allocate capacity placement =>
    exact h.push (Region.writable_allocate capacity placement).toWellFormed
  | wrap bytes => exact h.push ⟨Nat.zero_le _, Nat.le_refl _⟩
  | wrapReadOnly bytes => exact h.push (Region.wellFormed_wrapReadOnly bytes)
  | change j change => exact h.onRegion j change
  | makeSources a =>
    exact ⟨⟨h.regions, a.forall_all SourceEnd.Fresh.inBounds h.sources, h.sinks⟩, .refl _⟩
  | makeSinks a =>
    exact ⟨⟨h.regions, h.sources, a.forall_all SinkEnd.Fresh.inBounds h.sinks⟩, .refl _⟩
  | read i kind => exact h.onSource (steady_source.read kind) i
  | closeSource i => exact h.onSource steady_source.close i
  | write k v => exact h.onSink (steady_sink.write v) k
  | flush k => exact h.onSink steady_sink.flush k
  | closeSink k => exact h.onSink steady_sink.close k
  | fill i j => exact h.filled i j
  | drain k j => exact h.drained k j
  | run p i k => exact h.transferred p i k
  | runThrough p i k j => exact h.transferredThrough p i k j

/-- One call after the other. -/
theorem InBounds.steps (h : w.InBounds) (program : List (Command P Q D E n)) :
    w.Leads (w.steps program) := by
  induction program generalizing w with
  | nil => exact .refl h
  | cons c program ih =>
    have hstep := h.step c
    exact hstep.trans (ih hstep.inBounds)

theorem inBounds_run (program : List (Command P Q D E n)) : (run program).InBounds :=
  have hempty : (⟨[], [], []⟩ : World P Q D E n).InBounds := ⟨nofun, nofun, nofun⟩
  (hempty.steps program).inBounds

end Calls

end World

end ByteFlow
