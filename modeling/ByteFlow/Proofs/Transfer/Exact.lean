import ByteFlow.Proofs.Capacity
import ByteFlow.Proofs.Content
import ByteFlow.Proofs.Meter.Faithful
import ByteFlow.Proofs.Transfer.Round

/-!
# Transfers move exactly what they are asked for

Between an open source and an open sink every transfer comes to the same end, whichever way
it goes and whatever region it uses.  If there is room for all bytes that are asked for, it
moves these and no others.  Otherwise it fills the target; in rounds this is a result, and
byte by byte it is a failure, for the byte that was read has no place to go.

## Main definitions

* `Plan.asked p s` — how many bytes of the source the plan asks for.
* `Plan.Exact` — the end that every transfer comes to.
* `Plan.Moving` — the invariant of both loops.
* `Plan.ends_run_exact`, `Plan.ends_runThrough_exact` — the transfers.
-/

namespace ByteFlow

open ByteFlow.Action

variable {σ τ : Type}

/-- A request for more than there is takes what there is. -/
theorem Advanced.min_length [Openness σ] [Content σ] {s t : σ} {n : Nat} (h : Advanced s n t) :
    Advanced s (min n (content s).length) t := by
  refine ⟨h.1, ?_⟩
  rw [h.2, List.drop_eq_drop_iff, Nat.min_assoc, Nat.min_self]

namespace Plan

/-! ## How many bytes are asked for -/

section Asked

variable [Content σ]

/-- How many bytes of the source the plan asks for: all of them, or as many as its limit
says. -/
def asked (p : Plan) (s : σ) : Nat := p.within 0 (content s).length

variable {p : Plan} {s : σ} {j : Nat}

theorem asked_le_length (p : Plan) (s : σ) : p.asked s ≤ (content s).length := p.within_le

/-- A plan that wants no more was given all it asked for. -/
theorem asked_le_of_enough (s : σ) (h : p.wantsMore j = false) : p.asked s ≤ j := by
  rcases p with ⟨_ | limit, size⟩
  · simp [wantsMore] at h
  · simp only [asked, within, wantsMore, decide_eq_false_iff_not] at *
    omega

theorem lt_asked_of_wants (h : p.wantsMore j = true) (hj : j < (content s).length) :
    j < p.asked s := by
  rcases p with ⟨_ | limit, size⟩
  · exact hj
  · simp only [asked, within, wantsMore, decide_eq_true_eq] at *
    omega

/-- No round takes more than is asked for. -/
theorem add_le_asked {n k : Nat} (hj : j ≤ p.asked s) (hk : k ≤ p.within j n)
    (hlen : j + k ≤ (content s).length) : j + k ≤ p.asked s := by
  rcases p with ⟨_ | limit, size⟩
  · exact hlen
  · simp only [asked, within] at *
    omega

end Asked

/-! ## The end of a transfer -/

section Exact

variable [Openness σ] [Content σ] [Openness τ] [Meter τ] [Capacity τ]

/-- The target has received as many of the bytes that are asked for as it had room for.  If
these were not all of them, the answer depends on the way that was taken. -/
structure Exact (p : Plan) (s : σ) (t : τ) (buffered : Bool) (answer : Except Fault Summary)
    (s' : σ) (t' : τ) : Prop where
  /-- There is room for all of them. -/
  complete : (p.asked s : ℕ∞) ≤ Capacity.capacity t →
    (∃ summary, answer = .ok summary ∧ summary.bytes = p.asked s) ∧
      Exactly t ((content s).take (p.asked s)) t' ∧ content s' = (content s).drop (p.asked s)
  /-- There is room for `m` of them. -/
  received : ∀ m : ℕ, Capacity.capacity t = m → m < p.asked s →
    Exactly t ((content s).take m) t'
  short : ∀ m : ℕ, Capacity.capacity t = m → m < p.asked s → buffered = true →
    ∃ summary, answer = .ok summary ∧ summary.bytes = m
  refused : ∀ m : ℕ, Capacity.capacity t = m → m < p.asked s → buffered = false →
    answer = .error .endOfStream

/-- The first `j` of the bytes that are asked for were moved. -/
structure Moving (p : Plan) (s : σ) (t : τ) (j : Nat) (s' : σ) (t' : τ) : Prop where
  source : Advanced s j s'
  target : Takes t ((content s).take j) t'
  le_asked : j ≤ p.asked s

variable {p : Plan} {s s' s'' : σ} {t t' t'' : τ} {j n : Nat}

namespace Moving

theorem initial (hs : IsOpen s) (ht : IsOpen t) : p.Moving s t 0 s t :=
  ⟨⟨hs, rfl⟩, .refl ht, Nat.zero_le _⟩

theorem length_content (h : p.Moving s t j s' t') :
    (content s').length = (content s).length - j := by
  rw [h.source.2, List.length_drop]

/-- The places of the bytes that were moved are used up. -/
theorem capacity_eq (h : p.Moving s t j s' t') :
    Capacity.capacity t = j + Capacity.capacity t' := by
  have hle := Nat.le_trans h.le_asked (p.asked_le_length s)
  rw [h.target.2.2, List.length_take_of_le hle]

/-- Some more bytes were handed on. -/
theorem takes (h : p.Moving s t j s' t') (ht : Takes t' ((content s').take n) t'') :
    Takes t ((content s).take (j + n)) t'' := by
  rw [h.source.2] at ht
  rw [List.take_add]
  exact h.target.trans ht

/-- Some more bytes were taken and handed on. -/
theorem step (h : p.Moving s t j s' t') (hs : Advanced s' n s'')
    (ht : Takes t' ((content s').take n) t'') (hle : j + n ≤ p.asked s) :
    p.Moving s t (j + n) s'' t'' :=
  ⟨h.source.trans hs, h.takes ht, hle⟩

/-- The source is at its end, so there is nothing more to ask for. -/
theorem eq_asked_of_length_le (h : p.Moving s t j s' t') (hlen : (content s).length ≤ j) :
    j = p.asked s :=
  Nat.le_antisymm h.le_asked (Nat.le_trans (p.asked_le_length s) hlen)

variable [Faithful τ] {buffered : Bool}

/-- Everything that is asked for was moved. -/
theorem exact_of_eq (h : p.Moving s t j s' t') (hj : j = p.asked s) {summary : Summary}
    (hbytes : summary.bytes = j) : p.Exact s t buffered (.ok summary) s' t' := by
  subst hj
  have hroom : ∀ m : ℕ, Capacity.capacity t = m → ¬m < p.asked s := by
    intro m hm hlt
    have hle : (p.asked s : ℕ∞) ≤ m := by
      rw [← hm, h.capacity_eq]
      exact le_self_add
    have hle' : p.asked s ≤ m := by exact_mod_cast hle
    omega
  refine ⟨?_, ?_, ?_, ?_⟩
  · exact fun _ => ⟨⟨summary, rfl, hbytes⟩, Faithful.exactly h.target.2.1, h.source.2⟩
  · exact fun m hm hlt => absurd hlt (hroom m hm)
  · exact fun m hm hlt => absurd hlt (hroom m hm)
  · exact fun m hm hlt => absurd hlt (hroom m hm)

end Moving

omit [Openness σ] in
/-- The target was filled before everything that is asked for was moved. -/
theorem exact_of_full [Faithful τ] {answer : Except Fault Summary} {buffered : Bool}
    (htakes : Takes t ((content s).take j) t') (hfull : Capacity.capacity t' = 0)
    (hj : j < p.asked s)
    (hshort : buffered = true → ∃ summary, answer = .ok summary ∧ summary.bytes = j)
    (hrefused : buffered = false → answer = .error .endOfStream) :
    p.Exact s t buffered answer s' t' := by
  have hcapacity : Capacity.capacity t = j := by
    have hle : j ≤ (content s).length := Nat.le_trans (Nat.le_of_lt hj) (p.asked_le_length s)
    rw [htakes.2.2, hfull, add_zero, List.length_take_of_le hle]
  have hroom : ∀ m : ℕ, Capacity.capacity t = m → m = j := by
    intro m hm
    rw [hcapacity] at hm
    exact_mod_cast hm.symm
  refine ⟨?_, ?_, ?_, ?_⟩
  · intro hle
    rw [hcapacity] at hle
    have hle' : p.asked s ≤ j := by exact_mod_cast hle
    omega
  · intro m hm _
    rw [hroom m hm]
    exact Faithful.exactly htakes.2.1
  · intro m hm _ hbuffered
    rw [hroom m hm]
    exact hshort hbuffered
  · exact fun m hm _ hbuffered => hrefused hbuffered

/-! ## One round -/

/-- How many bytes a round takes from the source, if the region has room for `room`. -/
def load (p : Plan) (j room : Nat) (s : σ) : Nat := min (p.within j room) (content s).length

/-- A round took its load and handed on `n` bytes of it. -/
structure Carried (p : Plan) (j n : Nat) (s : σ) (t : τ) (r : Region) (s' : σ) (t' : τ)
    (r' : Region) : Prop where
  source : Advanced s (p.load j r.capacity s) s'
  target : Takes t ((content s).take n) t'
  le_load : n ≤ p.load j r.capacity s
  /-- Bytes are left over only where there is no room. -/
  eq_load_or : n = p.load j r.capacity s ∨ Capacity.capacity t' = 0
  readOnly_eq : r'.readOnly = false
  capacity_eq : r'.capacity = r.capacity

variable [Source σ] [LawfulSource σ] [Sink τ] [LawfulSink τ]

/-- A round is the last one unless it handed on all that the window had room for. -/
theorem ends_round_carried {r : Region} (rounds : Nat) (hs : IsOpen s) (ht : IsOpen t)
    (hwritable : r.readOnly = false) (hwants : p.wantsMore j = true) :
    p.round.Ends (⟨s, t, r⟩, ⟨j, rounds⟩) fun answer q =>
      ∃ n, p.Carried j n s t r q.1.source q.1.target q.1.region ∧
        answer = .ok (if n = p.within j r.capacity then none else some ()) ∧
        q.2 = ⟨j + n, rounds + 1⟩ := by
  rw [ends_round, if_pos hwants]
  refine (LawfulSource.fill s _ hs (p.writable_openWindow hwritable)).of_answer ?_
  intro final hends
  obtain ⟨s', q⟩ := final
  obtain ⟨hsource, hq⟩ := hends
  change q = p.loaded j r _ at hq
  rw [remaining_openWindow] at hsource hq
  subst hq
  generalize hbs : (content s).take (p.within j r.capacity) = bs
  have hload : bs.length = p.load j r.capacity s := by
    rw [← hbs, List.length_take, load]
  have hfits : bs.length ≤ p.within j r.capacity := by
    rw [hload]
    exact Nat.min_le_left ..
  refine (LawfulSink.drain t _ ht (p.wellFormed_flip_loaded hwritable hfits)).of_answer ?_
  intro final hends
  obtain ⟨t', u⟩ := final
  obtain ⟨n, hn, htarget, rfl, hend⟩ := hends
  rw [Region.remaining_flip, position_loaded] at hn hend
  rw [Region.window_flip, p.list_filled_loaded hwritable, ← hbs, List.take_take,
    Nat.min_eq_left (by omega)] at htarget
  refine ⟨n, ⟨hsource.min_length, htarget, ?_, ?_, ?_, ?_⟩, ?_, ?_⟩
  · rwa [hload] at hn
  · rwa [hload] at hend
  · exact (p.readOnly_handed).trans hwritable
  · exact p.capacity_handed hwritable hfits
  · dsimp only
    rw [p.hasRemaining_handed hfits hn]
    by_cases hall : n = p.within j r.capacity
    · simp [hall]
    · simp [hall]
  · have hgiven : bs.length - (bs.length - n) = n := by omega
    dsimp only
    rw [position_loaded, remaining_handed, hgiven]

/-! ## The two loops -/

namespace Moving

variable [Faithful τ]

/-- Byte by byte, what was moved grows by one until one of the sides is at its end. -/
theorem ends_bytes (turns : Nat) (h : p.Moving s t j s' t')
    (hturns : (content s').length < turns) :
    (repeatUntil turns p.moveByte (pure ())).Ends ((s', t'), j) fun answer q =>
      p.Exact s t false (answer.map fun _ => ⟨q.2, q.2, .unbuffered⟩) q.1.1 q.1.2 := by
  induction turns generalizing j s' t' with
  | zero => omega
  | succ turns ih =>
    have hlength := h.length_content
    rw [ends_repeatUntil_succ, ends_moveByte]
    by_cases hwants : p.wantsMore j = true
    · rw [if_pos hwants]
      refine (LawfulSource.readU8 s' h.source.1).of_answer ?_
      intro s'' hsource
      by_cases hone : 1 ≤ (content s').length
      · rw [delivered_of_le hone]
        have hj : j < p.asked s := lt_asked_of_wants hwants (by omega)
        refine (LawfulSink.writeU8 _ t' h.target.1).mono ?_
        intro answer t'' hends
        rcases hends with ⟨rfl, htakes⟩ | ⟨rfl, htakes, hfull⟩
        · have hbyte : (content s').take 1 = [((content s').take 1).headD 0] := by
            cases hcontent : content s' with
            | nil => simp [hcontent] at hone
            | cons b rest => rfl
          rw [← hbyte] at htakes
          refine ih (h.step hsource htakes hj) ?_
          rw [hsource.2, List.length_drop]
          omega
        · -- the byte that was read is lost, and the target has no more room
          exact exact_of_full (h.target.trans_nil htakes) hfull hj nofun fun _ => rfl
      · rw [delivered_of_lt (by omega)]
        have hnil : content s' = [] := List.length_eq_zero_iff.1 (by omega)
        have hmoving := h.step (n := 0) (by simpa [hnil] using hsource.min_length)
          (.refl h.target.1) h.le_asked
        exact hmoving.exact_of_eq (hmoving.eq_asked_of_length_le (by omega)) rfl
    · rw [if_neg hwants]
      have hall : j = p.asked s :=
        Nat.le_antisymm h.le_asked (asked_le_of_enough s (by simpa using hwants))
      exact h.exact_of_eq hall rfl

/-- In rounds, what was moved grows by what a round could take and hand on. -/
theorem ends_rounds (turns rounds : Nat) (strategy : Strategy) {r : Region}
    (h : p.Moving s t j s' t') (hturns : (content s').length < turns)
    (hwritable : r.readOnly = false) (hcapacity : r.capacity ≠ 0) :
    (repeatUntil turns p.round (pure ())).Ends (⟨s', t', r⟩, ⟨j, rounds⟩) fun answer q =>
      p.Exact s t true (answer.map fun _ => ⟨q.2.moved, q.2.rounds, strategy⟩) q.1.source
        q.1.target := by
  induction turns generalizing j s' t' r rounds with
  | zero => omega
  | succ turns ih =>
    have hlength := h.length_content
    have hle := Nat.le_trans h.le_asked (p.asked_le_length s)
    rw [ends_repeatUntil_succ]
    by_cases hwants : p.wantsMore j = true
    · have hasked : j + p.load j r.capacity s' ≤ p.asked s :=
        add_le_asked h.le_asked (Nat.min_le_left ..) (by rw [load]; omega)
      refine (ends_round_carried rounds h.source.1 h.target.1 hwritable hwants).mono ?_
      intro answer final hends
      obtain ⟨⟨s'', t'', r'⟩, progress⟩ := final
      obtain ⟨n, hn, rfl, rfl⟩ := hends
      have hload : p.load j r.capacity s' = min (p.within j r.capacity) (content s').length := rfl
      by_cases hfull : n = p.load j r.capacity s'
      · have hsource := hn.source
        rw [← hfull] at hsource
        have hmoving : p.Moving s t (j + n) s'' t'' := h.step hsource hn.target (by omega)
        by_cases hall : n = p.within j r.capacity
        · -- the window was not empty, so there is less to move than before
          rw [if_pos hall]
          have hpos := p.within_pos hwants hcapacity
          have hless := hmoving.length_content
          refine ih (rounds + 1) hmoving (by omega) hn.readOnly_eq ?_
          rwa [hn.capacity_eq]
        · rw [if_neg hall]
          exact hmoving.exact_of_eq (hmoving.eq_asked_of_length_le (by omega)) rfl
      · have hle := hn.le_load
        have hroom := hn.eq_load_or.resolve_left hfull
        rw [if_neg (by omega)]
        refine exact_of_full (h.takes hn.target) hroom (by omega) ?_ nofun
        exact fun _ => ⟨_, rfl, rfl⟩
    · rw [ends_round, if_neg hwants]
      have hall : j = p.asked s :=
        Nat.le_antisymm h.le_asked (asked_le_of_enough s (by simpa using hwants))
      exact h.exact_of_eq hall rfl

end Moving

/-! ## Whole transfers -/

section Whole

variable [Faithful τ] [Supply σ] [LawfulSupply σ] {s : σ} {t : τ}

theorem ends_runUnbuffered_exact (p : Plan) (hs : IsOpen s) (ht : IsOpen t) :
    p.runUnbuffered.Ends (s, t) fun answer q => p.Exact s t false answer q.1 q.2 := by
  have hsupply := LawfulSupply.length_content_le s
  rw [ends_runUnbuffered]
  exact (Moving.initial hs ht).ends_bytes _ (by omega)

theorem ends_runBetween_exact (p : Plan) (hs : IsOpen s) (ht : IsOpen t) {r : Region}
    (hwritable : r.readOnly = false) (hcapacity : r.capacity ≠ 0) :
    p.runBetween.Ends ((s, t), r) fun answer q => p.Exact s t true answer q.1.1 q.1.2 := by
  have hsupply := LawfulSupply.length_content_le s
  rw [ends_runBetween, ends_runBuffered]
  exact (Moving.initial hs ht).ends_rounds _ 0 _ (Nat.lt_succ_of_le hsupply) hwritable hcapacity

theorem capacity_ne_zero (h : p.bufferSize ≠ 0) : p.capacity ≠ 0 := by
  rw [capacity]
  split <;> omega

/-- A transfer that picks its own way is exact. -/
theorem ends_run_exact (p : Plan) (hs : IsOpen s) (ht : IsOpen t)
    (hsize : p.bufferSize ≤ maxBufferSize) :
    p.run.Ends (s, t) fun answer q => p.Exact s t (p.placement s t).isSome answer q.1 q.2 := by
  rw [ends_run p hsize]
  cases hplacement : p.placement s t with
  | none => exact p.ends_runUnbuffered_exact hs ht
  | some place =>
    have hbuffer : p.bufferSize ≠ 0 := by
      intro hzero
      rw [placement, if_pos hzero] at hplacement
      simp at hplacement
    refine p.ends_runBetween_exact hs ht rfl ?_
    rw [Region.capacity, Region.allocate, Bytes.size_replicate]
    exact capacity_ne_zero hbuffer

/-- A transfer through a region of the caller is exact. -/
theorem ends_runThrough_exact (p : Plan) (hs : IsOpen s) (ht : IsOpen t) {r : Region}
    (hwritable : r.readOnly = false) (haccepted : r.capacity ≠ 0 ∨ p.limit = none) :
    p.runThrough.Ends ((s, t), r) fun answer q =>
      p.Exact s t (decide (r.capacity ≠ 0)) answer q.1.1 q.1.2 := by
  rw [ends_runThrough p hwritable]
  by_cases hcapacity : r.capacity = 0
  · have hlimit : p.limit = none := haccepted.resolve_left (absurd hcapacity)
    rw [if_pos hcapacity, hlimit, if_neg (by simp), decide_eq_false (not_not_intro hcapacity)]
    exact p.ends_runUnbuffered_exact hs ht
  · rw [if_neg hcapacity, decide_eq_true hcapacity]
    exact p.ends_runBetween_exact hs ht hwritable hcapacity

end Whole

end Exact

end Plan

/-- Between open trees over memory all transfers are exact: those that pick their own way,
and those through any region that is accepted. -/
theorem Tree.transfer_exact {m n : Nat} {s : Tree StandardPolicy MemorySource m}
    {t : Tree StandardPolicy (MemorySink ⊕ GrowingSink) n} (hs : IsOpen s) (ht : IsOpen t)
    (p : Plan) :
    (p.bufferSize ≤ maxBufferSize →
      p.Exact s t (p.placement s t).isSome (p.run.run (s, t)).answer (p.run.run (s, t)).state.1
        (p.run.run (s, t)).state.2) ∧
    ∀ r : Region, r.readOnly = false → r.capacity ≠ 0 ∨ p.limit = none →
      p.Exact s t (decide (r.capacity ≠ 0)) (p.runThrough.run ((s, t), r)).answer
        (p.runThrough.run ((s, t), r)).state.1.1 (p.runThrough.run ((s, t), r)).state.1.2 := by
  constructor
  · intro hsize
    exact p.ends_run_exact hs ht hsize
  · intro r hwritable haccepted
    exact p.ends_runThrough_exact hs ht hwritable haccepted

/-- Three bytes for a target with room for two: through a region this is a short transfer,
and without a buffer it is a failure. -/
theorem Tree.transfer_exact_of_little_room :
    let s : Tree StandardPolicy MemorySource 2 := Layer.chain (Chain.new .close
      [Layer.endpoint ⟨Bytes.ofList [1, 2], 0, false⟩, Layer.endpoint ⟨Bytes.ofList [3], 0, false⟩])
    let t : Tree StandardPolicy (MemorySink ⊕ GrowingSink) 1 :=
      Layer.endpoint (.inl ⟨Bytes.replicate 2 0, 0, false⟩)
    let r := Region.allocate 1 .direct
    (∃ summary, (({} : Plan).runThrough.run ((s, t), r)).answer = .ok summary ∧
      summary.bytes = 2) ∧
    (({ bufferSize := 0 } : Plan).run.run (s, t)).answer = .error .endOfStream := by
  intro s t r
  have hs : IsOpen s := by
    refine (isOpen_chain_new _ _).2 ?_
    exact List.forall_mem_cons.2 ⟨rfl, List.forall_mem_singleton.2 rfl⟩
  have ht : IsOpen t := rfl
  have hcapacity : Capacity.capacity t = (2 : ℕ) := rfl
  constructor
  · exact ((Tree.transfer_exact hs ht {}).2 r rfl (.inl (by decide))).short 2 hcapacity
      (by decide) (by decide)
  · exact ((Tree.transfer_exact hs ht { bufferSize := 0 }).1 (by decide)).refused 2 hcapacity
      (by decide) (by decide)

end ByteFlow
