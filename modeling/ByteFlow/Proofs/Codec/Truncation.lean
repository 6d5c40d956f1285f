import ByteFlow.Proofs.Codec.RoundTrip
import ByteFlow.Proofs.Quota.Endpoint
import ByteFlow.Proofs.Writing.Basic

/-!
# Values that are cut off

The bytes of some values may be cut off anywhere: inside a number, inside the length of a
sequence, between the two bytes of a code unit, or behind some of the steps in which a sequence is
read.  The values in front of the cut are read as they were written, the one that the cut goes
through is not there at all, and every byte up to the cut is taken.  A sink that has too little
room for some values takes the same bytes of them, and fails at the same value.

## Main definitions

* `Action.untilFault` — one operation after the other, up to the first one that fails.
* `Value.Cut` — the values that are whole within the first bytes, and the others.
* `RunsDry x bs` — where bytes are missing at the end, the operation takes the others and reports
  the end of the stream.
* `Value.ends_read_cut`, `Value.ends_write_cut` — the two sides.
-/

namespace ByteFlow

open ByteFlow.Action

variable {σ ρ α β : Type}

/-! ## Up to the first fault -/

/-- Perform the operation for each entry, up to the first one for which it fails, and answer what
was answered until then and the fault. -/
def Action.untilFault (body : β → Action σ α) : List β → Action σ (List α × Option Fault)
  | [] => pure ([], none)
  | b :: others => do
    match ← attempt (body b) with
    | .error fault => pure ([], some fault)
    | .ok a =>
      let (answers, fault) ← untilFault body others
      pure (a :: answers, fault)

theorem Action.ends_untilFault_cons (body : β → Action σ α) (b : β) (others : List β) (s : σ)
    (Q : Except Fault (List α × Option Fault) → σ → Prop) :
    (untilFault body (b :: others)).Ends s Q ↔
      (body b).Ends s fun answer t =>
        match answer with
        | .error fault => Q (.ok ([], some fault)) t
        | .ok a =>
          (untilFault body others).Ends t fun answers u =>
            Q (answers.map fun p => (a :: p.1, p.2)) u := by
  rw [untilFault, ends_attempt_bind]
  refine ends_congr fun answer t => ?_
  cases answer with
  | error fault => rfl
  | ok a => exact (ends_bind ..).trans (ends_congr fun answers u => by cases answers <;> rfl)

/-! ## Where the cut is -/

namespace Value

/-- The values in front are whole within the first `m` bytes, and the next one is not. -/
structure Cut (values : List Value) (m : Nat) (front rest : List Value) : Prop where
  split : values = front ++ rest
  whole : (front.flatMap encode).length ≤ m
  broken : ∀ v others, rest = v :: others → m < ((front ++ [v]).flatMap encode).length

/-- The fault at the first value that is not whole. -/
def stop : List Value → Option Fault
  | [] => none
  | _ :: _ => some .endOfStream

/-- There is a cut at any byte. -/
theorem exists_cut (values : List Value) (m : Nat) : ∃ front rest, Cut values m front rest := by
  induction values generalizing m with
  | nil => exact ⟨[], [], rfl, Nat.zero_le m, nofun⟩
  | cons v values ih =>
    by_cases hv : v.encode.length ≤ m
    · obtain ⟨front, rest, hsplit, hwhole, hbroken⟩ := ih (m - v.encode.length)
      refine ⟨v :: front, rest, by rw [hsplit, List.cons_append], ?_, ?_⟩
      · rw [List.flatMap_cons, List.length_append]
        omega
      · intro w others hrest
        have hlt := hbroken w others hrest
        rw [List.cons_append, List.flatMap_cons, List.length_append]
        omega
    · refine ⟨[], v :: values, rfl, Nat.zero_le m, ?_⟩
      rintro w others ⟨⟩
      simp only [List.nil_append, List.flatMap_singleton]
      omega

namespace Cut

variable {values front rest : List Value} {m : Nat} {v : Value}

theorem length_le (h : Cut values m (v :: front) rest) : v.encode.length ≤ m := by
  have hwhole := h.whole
  rw [List.flatMap_cons, List.length_append] at hwhole
  omega

/-- The cut through the values behind a whole one. -/
theorem tail (h : Cut values m (v :: front) rest) :
    values = v :: (front ++ rest) ∧ Cut (front ++ rest) (m - v.encode.length) front rest := by
  have hwhole := h.whole
  rw [List.flatMap_cons, List.length_append] at hwhole
  refine ⟨h.split, rfl, by omega, fun w others hrest => ?_⟩
  have hbroken := h.broken w others hrest
  rw [List.cons_append, List.flatMap_cons, List.length_append] at hbroken
  omega

/-- The cut goes through the first value. -/
theorem lt_length {others : List Value} (h : Cut values m [] (v :: others)) :
    m < v.encode.length := by
  have hbroken := h.broken v others rfl
  rwa [List.nil_append, List.flatMap_singleton] at hbroken

end Cut

/-- The bytes up to a cut behind the first value. -/
theorem take_encode_cons {v : Value} {values : List Value} {m : Nat} (h : v.encode.length ≤ m) :
    ((v :: values).flatMap encode).take m =
      v.encode ++ (values.flatMap encode).take (m - v.encode.length) := by
  rw [List.flatMap_cons, List.take_append, List.take_of_length_le h]

/-- The bytes up to a cut through the first value. -/
theorem take_encode_cons_of_lt {v : Value} {values : List Value} {m : Nat}
    (h : m < v.encode.length) :
    ((v :: values).flatMap encode).take m = v.encode.take m := by
  rw [List.flatMap_cons, List.take_append_of_le_length (Nat.le_of_lt h)]

end Value

/-! ## Reading -/

/-- Bytes in front of two pieces that are not all of them end in the first piece or in the
second. -/
theorem cases_of_short {ds bs cs : List UInt8} (hds : ds <+: bs ++ cs)
    (hlt : ds.length < (bs ++ cs).length) :
    (ds <+: bs ∧ ds.length < bs.length) ∨
      ∃ es, ds = bs ++ es ∧ es <+: cs ∧ es.length < cs.length := by
  by_cases hshort : ds.length < bs.length
  · have hfront : ds <+: bs :=
      List.prefix_of_prefix_length_le hds (List.prefix_append ..) (Nat.le_of_lt hshort)
    exact .inl ⟨hfront, hshort⟩
  · obtain ⟨es, rfl⟩ : bs <+: ds :=
      List.prefix_of_prefix_length_le (List.prefix_append ..) hds (Nat.le_of_not_lt hshort)
    rw [List.length_append, List.length_append] at hlt
    exact .inr ⟨es, rfl, (List.prefix_append_right_inj bs).1 hds, by omega⟩

section Read

variable [Openness σ] [Content σ]

/-- Where the content is some of these bytes in front but not all of them, the operation takes all
of it and reports the end of the stream. -/
def RunsDry (x : Action σ α) (bs : List UInt8) : Prop :=
  ∀ s, IsOpen s → content s <+: bs → (content s).length < bs.length →
    x.Ends s fun answer t => answer = .error .endOfStream ∧ IsOpen t ∧ content t = []

namespace RunsDry

variable {x : Action σ α} {bs cs : List UInt8} {a : α}

/-- It does not matter what would have come next. -/
theorem bind_left (hx : RunsDry x bs) (f : α → Action σ β) : RunsDry (x >>= f) bs := by
  intro s hs hprefix hlt
  rw [ends_bind]
  refine (hx s hs hprefix hlt).of_answer ?_
  intro t ht
  exact ⟨rfl, ht⟩

/-- The bytes may end before those of the second operation begin, or among them. -/
protected theorem bind {f : α → Action σ β} (hx : RunsDry x bs) (hxa : Recovers x bs a)
    (hf : RunsDry (f a) cs) : RunsDry (x >>= f) (bs ++ cs) := by
  intro s hs hprefix hlt
  rcases cases_of_short hprefix hlt with ⟨hfront, hshort⟩ | ⟨ds, hcontent, hrest, hshort⟩
  · exact hx.bind_left f s hs hfront hshort
  · rw [ends_bind]
    refine (hxa s ds hs hcontent).of_answer ?_
    rintro t ⟨ht, rfl⟩
    exact hf t ht hrest hshort

theorem map (hx : RunsDry x bs) (f : α → β) : RunsDry (f <$> x) bs := by
  rw [← bind_pure_comp]
  exact hx.bind_left _

end RunsDry

theorem Reads.runsDry {x : Action σ α} {n : Nat} {f : List UInt8 → α} {bs : List UInt8}
    (h : Reads x n f) (hn : bs.length = n) : RunsDry x bs := by
  intro s hs _ hlt
  rw [hn] at hlt
  refine (h s hs).of_answer ?_
  rintro t ⟨ht, hrest⟩
  rw [delivered_of_lt hlt, hrest]
  exact ⟨rfl, ht, List.drop_of_length_le (Nat.le_of_lt hlt)⟩

theorem Gathers.runsDry {x : Action (σ × ρ) Unit} {a : ρ} {n : Nat} {add : List UInt8 → ρ}
    {bs : List UInt8} (h : Gathers x a n add) (hn : bs.length = n) :
    RunsDry (alongside a x) bs := by
  intro s hs _ hlt
  rw [hn] at hlt
  rw [ends_alongside]
  refine (h s hs).of_answer ?_
  rintro ⟨t, b⟩ ⟨⟨ht, hrest⟩, -⟩
  rw [delivered_of_lt hlt, hrest]
  exact ⟨rfl, ht, List.drop_of_length_le (Nat.le_of_lt hlt)⟩

/-! ### Sequences -/

variable [Source σ] [LawfulSource σ]

theorem runsDry_readUnits (inHand : Array UInt16) (us : List UInt16) :
    RunsDry (alongside inHand (Source.readUnits us.length : Action (σ × Array UInt16) Unit))
      (unitBytes us) :=
  (LawfulSource.readUnits us.length inHand).runsDry (length_unitBytes us)

/-- The bytes may end in any of the steps. -/
theorem runsDry_steps {total : Nat} (turns : Nat) (inHand : Array UInt16) (us : List UInt16)
    (htotal : inHand.size + us.length = total) (hturns : us.length ≤ turns * Source.unitStep) :
    RunsDry (alongside inHand
      (repeatUntil turns (readStep total) (pure ()) : Action (σ × Array UInt16) Unit))
      (unitBytes us) := by
  induction turns generalizing inHand us with
  | zero =>
    obtain rfl : us = [] := List.length_eq_zero_iff.1 (by omega)
    exact fun s _ _ hlt => absurd hlt (Nat.not_lt_zero _)
  | succ turns ih =>
    intro s hs hprefix hlt
    have hmore : inHand.size < total := by
      rw [length_unitBytes] at hlt
      omega
    generalize hk : min (total - inHand.size) Source.unitStep = k
    have hlength : (us.take k).length = k := List.length_take_of_le (by omega)
    have hbytes : unitBytes us = unitBytes (us.take k) ++ unitBytes (us.drop k) := by
      rw [← unitBytes_append, List.take_append_drop]
    rw [ends_alongside, ends_repeatUntil_succ, readStep, ends_gets_bind]
    dsimp only
    rw [if_pos hmore, hk, ends_bind]
    rw [hbytes] at hprefix hlt
    rcases cases_of_short hprefix hlt with ⟨hfront, hshort⟩ | ⟨ds, hcontent, hrest, hshort⟩
    · have hdry := runsDry_readUnits inHand (us.take k) s hs hfront hshort
      rw [hlength, ends_alongside] at hdry
      refine hdry.mono ?_
      rintro answer ⟨t, units⟩ ⟨hanswer, ht⟩
      cases answer with
      | error fault => exact ⟨hanswer, ht⟩
      | ok _ => cases hanswer
    · -- this step is taken, and the bytes end in one of the others
      refine (collects_readUnits inHand _ hlength s ds hs hcontent).of_answer ?_
      rintro ⟨t, units⟩ ⟨ht, rfl, rfl⟩
      refine (ends_alongside ..).1
        (ih (inHand ++ (us.take k).toArray) (us.drop k) ?total ?turns t ht hrest hshort)
      case total =>
        simp only [Array.size_append, List.size_toArray, List.length_take, List.length_drop]
        omega
      case turns =>
        rw [List.length_drop]
        rw [Nat.succ_mul] at hturns
        omega

theorem runsDry_readUtf16 (us : List UInt16) (h : us.length ≤ Sink.maxUnits) :
    RunsDry (Source.readUtf16 : Action σ (Array UInt16)) (sequenceBytes us) := by
  have hlength := toInt_length h
  have hpos : ¬us.length.toUInt32.toInt32 < 0 := by
    rw [Int32.lt_iff_toInt_lt, hlength, Int32.toInt_zero]
    omega
  have hnumber : RunsDry (Source.readI32 : Action σ Int32) (BigEndian.encode 4 us.length) :=
    (Scalar.i32.reads_read (σ := σ)).runsDry (BigEndian.length_encode ..)
  refine hnumber.bind (recovers_length h) ?_
  rw [if_neg hpos, hlength]
  refine (runsDry_steps (us.length / Source.unitStep + 1) #[] us (Nat.zero_add _) ?_).bind_left _
  rw [Nat.mul_comm]
  exact Nat.le_of_lt (Nat.lt_mul_div_succ us.length (by decide))

/-! ### Whole values -/

/-- A value of which some bytes are missing is not there. -/
theorem Value.runsDry_read (v : Value) (h : v.Fits) :
    RunsDry (v.kind.read : Action σ Value) v.encode := by
  cases v with
  | scalar kind v => exact ((kind.reads_read (σ := σ)).runsDry (kind.length_encode v)).bind_left _
  | bytes data =>
    exact ((LawfulSource.readBytes (σ := σ)
      (Region.writable_allocate data.size .indirect)).runsDry rfl).bind_left _
  | units us => exact (runsDry_readUnits (σ := σ) #[] us.toList).bind_left _
  | sequence us => exact (runsDry_readUtf16 us.toList h).bind_left _
  | text s => exact ((runsDry_readUtf16 (Text.Utf16.encode s) h).bind_left _).bind_left _

/-- From the first bytes of some values the whole ones are read, and then no other. -/
theorem Value.ends_read_cut {values front rest : List Value} {m : Nat}
    (hfits : ∀ v ∈ values, v.Fits) (hcut : Cut values m front rest) {s : σ} (hs : IsOpen s)
    (hcontent : content s = (values.flatMap encode).take m)
    (hm : m ≤ (values.flatMap encode).length) :
    (untilFault Kind.read (values.map kind)).Ends s fun answer t =>
      answer = .ok (front, stop rest) ∧ IsOpen t ∧ content t = [] := by
  induction front generalizing values m s with
  | nil =>
    obtain rfl : values = rest := hcut.split
    cases values with
    | nil =>
      rw [List.flatMap_nil, List.take_nil] at hcontent
      exact ⟨rfl, hs, hcontent⟩
    | cons v others =>
      have hlt := hcut.lt_length
      rw [take_encode_cons_of_lt hlt] at hcontent
      rw [List.map_cons, ends_untilFault_cons]
      refine (v.runsDry_read (hfits v List.mem_cons_self) s hs ?_ ?_).of_answer ?_
      · rw [hcontent]
        exact List.take_prefix ..
      · rwa [hcontent, List.length_take_of_le (Nat.le_of_lt hlt)]
      · intro t ht
        exact ⟨rfl, ht⟩
  | cons v front ih =>
    obtain ⟨rfl, hrest⟩ := hcut.tail
    rw [take_encode_cons hcut.length_le] at hcontent
    rw [List.flatMap_cons, List.length_append] at hm
    rw [List.map_cons, ends_untilFault_cons]
    refine (v.recovers_read (hfits v List.mem_cons_self) s _ hs hcontent).of_answer ?_
    rintro t ⟨ht, hcontent⟩
    refine (ih (fun w hw => hfits w (List.mem_cons_of_mem v hw)) hrest ht hcontent
      (by omega)).of_answer ?_
    intro u hu
    exact ⟨rfl, hu⟩

end Read

/-! ## What was taken -/

section Taken

variable [Openness σ] [Meter σ]

/-- To be open, and to have come from `origin`. -/
@[reducible] def Openness.since (origin : σ) : Openness σ where
  IsOpen s := IsOpen s ∧ ∃ bs, Moved origin bs s
  Closable := Closable
  closable h := Openness.closable h.1

variable [Content σ] [Source σ] [LawfulSource σ]

/-- A source that tells of the bytes that it gives reads its content along the way. -/
theorem LawfulSource.since (origin : σ)
    (hread : Gives (fun _ => True) (Source.readU8 : Action σ UInt8) 1 fun bs => bs.headD 0)
    (hfill : Pours (Source.fill : Action (σ × Region) Unit))
    (hbytes : (Source.readBytes : Action (σ × Region) Unit) = Source.fillCompletely Source.fill)
    (hunits : ∀ n, (Source.readUnits n : Action (σ × Array UInt16) Unit) =
      Bytewise.readUnits Source.readU8 n) :
    @LawfulSource σ _ (Openness.since origin) _ := by
  have hsince {s t : σ} {bs : List UInt8} (h : ∃ bs, Moved origin bs s) (hmoved : Moved s bs t) :
      ∃ bs, Moved origin bs t := by
    obtain ⟨before, hbefore⟩ := h
    exact ⟨_, Meter.trans hbefore hmoved⟩
  have hclose {s : σ} (h : Closable s) := LawfulClose.ends_close h
  let _ := Openness.since origin
  exact {
    ends_close := hclose
    readU8 := by
      intro s hs
      refine ((LawfulSource.readU8 s hs.1).and (hread s trivial)).mono ?_
      rintro answer t ⟨⟨hanswer, ht, hrest⟩, bs, hmoved, -⟩
      exact ⟨hanswer, ⟨ht, hsince hs.2 hmoved⟩, hrest⟩
    fill := by
      intro s r hs hr
      refine ((LawfulSource.fill s r hs.1 hr).and (hfill s r hr)).mono ?_
      rintro answer p ⟨⟨hanswer, ⟨ht, hrest⟩, hp⟩, bs, -, hmoved, -⟩
      exact ⟨hanswer, ⟨⟨ht, hsince hs.2 hmoved⟩, hrest⟩, hp⟩
    readBytes := by
      intro r hr s hs
      have hmoved : (Source.readBytes : Action (σ × Region) Unit).Ends (s, r) fun _ p =>
          Poured s r p := by
        rw [hbytes, Source.ends_fillCompletely]
        exact hfill s r hr
      refine ((LawfulSource.readBytes hr s hs.1).and hmoved).mono ?_
      rintro answer p ⟨⟨hanswer, ⟨ht, hrest⟩, hp⟩, bs, -, hmoved, -⟩
      exact ⟨hanswer, ⟨⟨ht, hsince hs.2 hmoved⟩, hrest⟩, hp⟩
    readUnits := by
      intro n units s hs
      have hmoved : (Source.readUnits n : Action (σ × Array UInt16) Unit).Ends (s, units)
          (Gathered s n units) := by
        rw [hunits]
        exact hread.readUnits (fun _ _ => trivial) n units trivial
      refine ((LawfulSource.readUnits n units s hs.1).and hmoved).mono ?_
      rintro answer p ⟨⟨hanswer, ⟨ht, hrest⟩, hp⟩, bs, hmoved, -⟩
      exact ⟨hanswer, ⟨⟨ht, hsince hs.2 hmoved⟩, hrest⟩, hp⟩ }

end Taken

theorem MemorySource.lawfulSource_since (origin : MemorySource) :
    @LawfulSource MemorySource _ (Openness.since origin) _ :=
  .since origin gives_next MeteredSource.fill rfl fun _ => rfl

theorem Quota.lawfulSource_since (origin : Quota MemorySource) :
    @LawfulSource (Quota MemorySource) _ (Openness.since origin) _ :=
  .since origin (gives_counted MemorySource.gives_next) MeteredSource.fill rfl fun _ => rfl

/-! ## Writing -/

section Write

variable [Sink σ] [Openness σ] [Meter σ] [Capacity σ] [ThoroughSink σ]

theorem pushes_writeUtf16 (us : Array UInt16) (h : us.size ≤ Sink.maxUnits) :
    Pushes (Sink.writeUtf16 us : Action σ Unit) (sequenceBytes us.toList) := by
  rw [Sink.writeUtf16, if_neg (Nat.not_lt.2 h)]
  exact (LawfulSink.writeU8.pushes_writeList _).bind (ThoroughSink.pushes_writeUnits us)

namespace Value

theorem pushes_write (v : Value) (h : v.Fits) : Pushes (v.write : Action σ Unit) v.encode := by
  cases v with
  | scalar kind v =>
    rw [write, kind.write_eq]
    exact LawfulSink.writeU8.pushes_writeList _
  | bytes data => exact ThoroughSink.pushes_writeBytes data
  | units us => exact ThoroughSink.pushes_writeUnits us
  | sequence us => exact pushes_writeUtf16 us h
  | text s => exact pushes_writeUtf16 (Text.Utf16.encode s).toArray h

/-- Where there is room for the first bytes of some values, these bytes are taken, and the write of
the first value that is not whole fails. -/
theorem ends_write_cut {values front rest : List Value} {m : Nat}
    (hfits : ∀ v ∈ values, v.Fits) (hcut : Cut values m front rest) {s : σ} (hs : IsOpen s)
    (hcapacity : capacity s = m) (hm : m ≤ (values.flatMap encode).length) :
    (untilFault write values).Ends s fun answer t =>
      answer = .ok (front.map fun _ => (), stop rest) ∧
        Takes s ((values.flatMap encode).take m) t := by
  induction front generalizing values m s with
  | nil =>
    obtain rfl : values = rest := hcut.split
    cases values with
    | nil =>
      rw [List.flatMap_nil, List.take_nil]
      exact ⟨rfl, .refl hs⟩
    | cons v others =>
      have hlt := hcut.lt_length
      have hfull : ¬(v.encode.length : ℕ∞) ≤ capacity s := by
        rw [hcapacity, Nat.cast_le]
        omega
      rw [take_encode_cons_of_lt hlt, ends_untilFault_cons]
      refine ((v.pushes_write (hfits v List.mem_cons_self)).ends hs).of_answer ?_
      intro t ht
      rw [hcapacity, fitting_coe] at ht
      rw [if_neg hfull]
      exact ⟨rfl, ht⟩
  | cons v front ih =>
    have hle := hcut.length_le
    have hroom : (v.encode.length : ℕ∞) ≤ capacity s := by
      rw [hcapacity, Nat.cast_le]
      exact hle
    obtain ⟨rfl, hrest⟩ := hcut.tail
    rw [List.flatMap_cons, List.length_append] at hm
    rw [take_encode_cons hle, ends_untilFault_cons]
    refine ((v.pushes_write (hfits v List.mem_cons_self)).ends hs).of_answer ?_
    intro t ht
    have hleft : capacity t = (m - v.encode.length : Nat) := by
      rw [ht.capacity_eq, hcapacity, ENat.natCast_sub]
    rw [fitting_of_le hroom] at ht
    rw [if_pos hroom]
    refine (ih (fun w hw => hfits w (List.mem_cons_of_mem v hw)) hrest ht.1 hleft
      (by omega)).of_answer ?_
    intro u hu
    exact ⟨rfl, ht.trans hu⟩

end Value

end Write

/-! ## Arrays and quotas -/

namespace MemorySource

variable {s t : MemorySource} {bs : List UInt8}

theorem length_content (s : MemorySource) : (content s).length = s.available :=
  List.length_drop ..

theorem content_eq_append (h : Moved s bs t) : content s = bs ++ content t := h.2

end MemorySource

/-- A quota over an array of which nothing more can be read has let through as many bytes as it was
for. -/
theorem Quota.moved_of_content_eq_nil {q p : Quota MemorySource} {bs : List UInt8}
    (h : Moved q bs p) (hp : content p = []) (hq : q.remaining ≤ q.inner.available) :
    bs = (content q.inner).take q.remaining ∧ p.remaining = 0 ∧
      p.inner.available + q.remaining = q.inner.available := by
  obtain ⟨hmoved, hcount⟩ := h
  have hcontent := MemorySource.content_eq_append hmoved
  have hlength : q.inner.available = bs.length + p.inner.available := by
    rw [← MemorySource.length_content, hcontent, List.length_append, MemorySource.length_content]
  have hempty : min p.remaining p.inner.available = 0 := by
    rw [← MemorySource.length_content, ← List.length_take]
    exact List.length_eq_zero_iff.2 hp
  have hremaining : p.remaining = 0 := by omega
  refine ⟨?_, hremaining, by omega⟩
  rw [hcontent, List.take_left' (by omega)]

/-- Cut the bytes of some values off anywhere.  Reading the values from what is left of the bytes,
or from all of them through a quota for the same number, answers the ones that are whole and then
the end of the stream, and takes the bytes up to the cut and no others.  Writing the values to an
array with as many places, or through a quota for the same number of bytes, writes the bytes up to
the cut and fails at the same value. -/
theorem Value.truncated [Sink σ] [Openness σ] [Meter σ] [Capacity σ] [ThoroughSink σ]
    {values : List Value} (hfits : ∀ v ∈ values, v.Fits) {m : Nat}
    (hm : m ≤ (values.flatMap encode).length) :
    (∃ front rest, Cut values m front rest) ∧ ∀ front rest, Cut values m front rest →
      (∀ s : MemorySource, IsOpen s → content s = (values.flatMap encode).take m →
        (untilFault Kind.read (values.map kind)).Ends s fun answer t =>
          answer = .ok (front, stop rest) ∧ Moved s ((values.flatMap encode).take m) t ∧
            t.available = 0) ∧
      (∀ s : MemorySource, IsOpen s → content s = values.flatMap encode →
        (untilFault Kind.read (values.map kind)).Ends (Source.bounded m s) fun answer q =>
          answer = .ok (front, stop rest) ∧
            Moved (Source.bounded m s) ((values.flatMap encode).take m) q ∧ q.remaining = 0 ∧
            q.inner.available + m = s.available) ∧
      (∀ s : MemorySink, IsOpen s → s.available = m →
        (untilFault write values).Ends s fun answer t =>
          answer = .ok (front.map fun _ => (), stop rest) ∧
            t.written.list = s.written.list ++ (values.flatMap encode).take m ∧
            t.available = 0) ∧
      (∀ q : Quota σ, IsOpen q → q.remaining = m → m ≤ capacity q.inner →
        (untilFault write values).Ends q fun answer p =>
          answer = .ok (front.map fun _ => (), stop rest) ∧
            Moved q.inner ((values.flatMap encode).take m) p.inner ∧ p.remaining = 0) := by
  refine ⟨exists_cut values m, fun front rest hcut => ⟨?array, ?quota, ?sink, ?quotaSink⟩⟩
  case array =>
    intro s hs hcontent
    have := MemorySource.lawfulSource_since s
    refine (@ends_read_cut _ (Openness.since s) _ _ this _ _ _ _ hfits hcut s
      ⟨hs, [], Meter.refl s⟩ hcontent hm).of_answer ?_
    rintro t ⟨⟨-, bs, hmoved⟩, hempty⟩
    have hall := MemorySource.content_eq_append hmoved
    rw [hempty, List.append_nil] at hall
    rw [← hcontent, hall, ← MemorySource.length_content, hempty]
    exact ⟨rfl, hmoved, rfl⟩
  case quota =>
    intro s hs hcontent
    have hle : m ≤ s.available := by rwa [← MemorySource.length_content, hcontent]
    have := Quota.lawfulSource_since (Source.bounded m s)
    refine (@ends_read_cut _ (Openness.since (Source.bounded m s)) _ _ this _ _ _ _ hfits hcut
      (Source.bounded m s) ⟨hs, [], Meter.refl _⟩ (congrArg (List.take m) hcontent) hm).of_answer ?_
    rintro q ⟨⟨-, bs, hmoved⟩, hempty⟩
    obtain ⟨rfl, hremaining, havailable⟩ := Quota.moved_of_content_eq_nil hmoved hempty hle
    rw [← hcontent]
    exact ⟨rfl, hmoved, hremaining, havailable⟩
  case sink =>
    intro s hs havailable
    refine (ends_write_cut hfits hcut hs (congrArg _ havailable) hm).of_answer ?_
    rintro t ⟨-, ⟨hwritten, hposition, hsize⟩, -⟩
    refine ⟨rfl, hwritten, ?_⟩
    rw [List.length_take_of_le hm] at hposition
    rw [MemorySink.available] at *
    omega
  case quotaSink =>
    intro q hq hremaining hroom
    have hcapacity : capacity q = m := by
      change min (q.remaining : ℕ∞) (capacity q.inner) = m
      rw [hremaining, min_eq_left hroom]
    refine (ends_write_cut hfits hcut hq hcapacity hm).of_answer ?_
    rintro p ⟨-, ⟨hmoved, hcount⟩, -⟩
    rw [List.length_take_of_le hm] at hcount
    exact ⟨rfl, hmoved, by omega⟩

/-- A cut between the two bytes of the last code unit. -/
theorem Value.truncated_inside_unit :
    let values : List Value := [.scalar .bool true, .text "ab"]
    let bytes : List UInt8 := [255, 0, 0, 0, 2, 0, 97, 0]
    (∀ v ∈ values, v.Fits) ∧ 8 ≤ (values.flatMap encode).length ∧
      Cut values 8 [.scalar .bool true] [.text "ab"] ∧
      ((untilFault Kind.read (values.map kind)).Ends
        ({ data := Bytes.ofList bytes } : MemorySource) fun answer t =>
          answer = .ok ([.scalar .bool true], some .endOfStream) ∧ t.available = 0) ∧
      ((untilFault Kind.read (values.map kind)).Ends
        (Source.bounded 8 ({ data := Bytes.ofList (bytes ++ [98]) } : MemorySource)) fun answer q =>
          answer = .ok ([.scalar .bool true], some .endOfStream) ∧ q.remaining = 0 ∧
            q.inner.available = 1) ∧
      ((untilFault write values).Ends ({ data := Bytes.replicate 8 7 } : MemorySink) fun answer t =>
        answer = .ok ([()], some .endOfStream) ∧ t.written.list = bytes) ∧
      (untilFault write values).Ends (⟨{}, 8⟩ : Quota GrowingSink) fun answer q =>
        answer = .ok ([()], some .endOfStream) ∧ q.inner.bytes.list = bytes := by
  intro values bytes
  have hencode : values.flatMap encode = bytes ++ [98] := by decide
  have hfits : ∀ v ∈ values, v.Fits := by
    have hlength : (Text.Utf16.encode "ab").length ≤ Sink.maxUnits := by decide
    exact List.forall_mem_cons.2 ⟨trivial, List.forall_mem_singleton.2 hlength⟩
  have hm : 8 ≤ (values.flatMap encode).length := by
    rw [hencode]
    decide
  have hcut : Cut values 8 [.scalar .bool true] [.text "ab"] := by
    refine ⟨rfl, by decide, ?_⟩
    rintro v others ⟨⟩
    decide
  obtain ⟨harray, hquota, hsink, hquotaSink⟩ :=
    (truncated (σ := GrowingSink) hfits hm).2 _ _ hcut
  rw [hencode] at harray hquota hsink hquotaSink
  refine ⟨hfits, hm, hcut, ?_, ?_, ?_, ?_⟩
  · refine (harray _ rfl rfl).mono ?_
    rintro answer t ⟨rfl, -, ht⟩
    exact ⟨rfl, ht⟩
  · refine (hquota _ rfl rfl).mono ?_
    rintro answer q ⟨rfl, -, hremaining, havailable⟩
    exact ⟨rfl, hremaining, Nat.add_right_cancel (m := 8) havailable⟩
  · refine (hsink { data := Bytes.replicate 8 7 } rfl (by decide)).mono ?_
    rintro answer t ⟨rfl, ht, -⟩
    exact ⟨rfl, ht⟩
  · refine (hquotaSink ⟨{}, 8⟩ rfl rfl le_top).mono ?_
    rintro answer q ⟨rfl, hq, -⟩
    exact ⟨rfl, hq⟩

end ByteFlow
