import ByteFlow.Proofs.Acceptance.Transfer

/-!
# What was accepted in a run

A sink is written to, drained into, flushed and closed as one likes, and transfers give it bytes as
well.  What comes of each of these says which bytes were accepted: all that a write has offered if
it succeeds, and some in front but not all if it is refused; those by which the window of a drain
has moved; and those that a transfer counts.  To flush and to close offers nothing.

## Main definitions

* `Deed`, `Upshot` — what is done to a sink, and what comes of it.
* `Deed.Took` — the bytes of which the upshot tells.
* `Deed.run`, `Deed.Accepted` — a run of deeds, and the bytes that were accepted at each of them.
* `Deed.keeps_run` — what the operations of a sink keep, every run keeps.
* `Deed.exists_accepted`, `Deed.Accepted.moved` — every run has such bytes, and they are those that
  went through the sink.
-/

namespace ByteFlow

open ByteFlow.Action

variable {σ τ : Type}

/-- Something that is done to a sink.  A transfer comes with its source. -/
inductive Deed (σ : Type) where
  /-- One value of any kind; the bulk writes are among them. -/
  | write (v : Value)
  | drain (region : Region) (wellFormed : region.WellFormed)
  | flush
  | close
  | transfer (p : Plan) (source : σ)
  | transferThrough (p : Plan) (source : σ) (region : Region)

/-- What comes of it. -/
inductive Upshot (σ : Type) where
  | written (answer : Except Fault Unit)
  /-- The region holds the bytes that were not taken. -/
  | drained (answer : Except Fault Unit) (region : Region)
  | flushed (answer : Except Fault Unit)
  | closed (answer : Except Fault Unit)
  | transferred (answer : Except Fault Summary) (source : σ)
  | transferredThrough (answer : Except Fault Summary) (source : σ) (region : Region)

namespace Deed

section Perform

variable [Source σ] [Supply σ] [Sink τ]

/-- Do it to the sink. -/
def perform : Deed σ → Action τ (Upshot σ)
  | write v => .written <$> attempt v.write
  | drain region _ => do
    let (answer, region) ← alongside region (attempt Sink.drain)
    pure (.drained answer region)
  | flush => .flushed <$> attempt Sink.flush
  | close => .closed <$> attempt Closeable.close
  | transfer p source => .of fun t =>
    match p.run.run (source, t) with
    | ⟨answer, (source, t), log⟩ => ⟨.ok (.transferred answer source), t, log⟩
  | transferThrough p source region => .of fun t =>
    match p.runThrough.run ((source, t), region) with
    | ⟨answer, ((source, t), region), log⟩ =>
      ⟨.ok (.transferredThrough answer source region), t, log⟩

theorem ends_transfer (p : Plan) (source : σ) (t : τ)
    (Q : Except Fault (Upshot σ) → τ → Prop) :
    (transfer p source).perform.Ends t Q ↔
      p.run.Ends (source, t) fun answer q => Q (.ok (.transferred answer q.1)) q.2 := Iff.rfl

theorem ends_transferThrough (p : Plan) (source : σ) (region : Region) (t : τ)
    (Q : Except Fault (Upshot σ) → τ → Prop) :
    (transferThrough p source region).perform.Ends t Q ↔
      p.runThrough.Ends ((source, t), region) fun answer q =>
        Q (.ok (.transferredThrough answer q.1.1 q.2)) q.1.2 := Iff.rfl

theorem answer_transfer (p : Plan) (source : σ) (t : τ) :
    ((transfer p source).perform.run t).answer =
      .ok (.transferred (p.run.run (source, t)).answer (p.run.run (source, t)).state.1) := rfl

/-- The sink after some deeds. -/
def run (t : τ) (deeds : List (Deed σ)) : τ :=
  deeds.foldl (fun t deed => (deed.perform.run t).state) t

/-- What the operations of the sink keep, a deed keeps. -/
theorem keeps_perform {J : τ → Prop} (h : Sink.Keeps J) (deed : Deed σ) :
    Keeps J (deed.perform : Action τ (Upshot σ)) := by
  intro t ht
  cases deed with
  | write v =>
    rw [perform, ends_map]
    have hvalue := h.perform (.value v) t ht
    rwa [Submit.perform, ends_attempt_bind] at hvalue
  | drain region wellFormed =>
    simp only [perform, bind_pure_comp, ends_map, ends_alongside, ends_attempt]
    exact h.drain (t, region) ht
  | flush =>
    rw [perform, ends_map, ends_attempt]
    exact h.flush t ht
  | close =>
    rw [perform, ends_map, ends_attempt]
    exact h.close t ht
  | transfer p source => exact Plan.ends_run_target h p source ht
  | transferThrough p source region => exact Plan.ends_runThrough_target h p source ht region

theorem keeps_run {J : τ → Prop} (h : Sink.Keeps J) {t : τ} (ht : J t) (deeds : List (Deed σ)) :
    J (run t deeds) := by
  induction deeds generalizing t with
  | nil => exact ht
  | cons deed rest ih => exact ih (keeps_perform h deed t ht)

end Perform

/-! ## The bytes that were accepted -/

variable [Meter σ]

/-- The bytes of which the upshot of a deed tells. -/
inductive Took : Deed σ → Upshot σ → List UInt8 → Prop
  | written {v answer front} : Portion (v.tail = []) v.encode answer front →
    Took (.write v) (.written answer) front
  | drained {region wellFormed answer n} : n ≤ region.remaining →
    (answer ≠ .ok () → region.remaining ≠ 0 → n < region.remaining) →
    Took (.drain region wellFormed) (.drained answer (region.skip n)) (region.window.list.take n)
  | flushed {answer} : Took .flush (.flushed answer) []
  | closed {answer} : Took .close (.closed answer) []
  | transferred {p source answer source' given} : p.Conveyed source answer source' given →
    Took (.transfer p source) (.transferred answer source') given
  | transferredThrough {p source region answer source' region' given} :
    p.Conveyed source answer source' given →
    Took (.transferThrough p source region) (.transferredThrough answer source' region') given

namespace Took

variable {fault : Fault} {bs : List UInt8}

/-- A value that was written was accepted. -/
theorem of_written {v : Value} (h : Took (.write v : Deed σ) (.written (.ok ())) bs) :
    bs = v.encode := by
  cases h with
  | written hportion => exact hportion.1.2 rfl

/-- A byte that was refused was not. -/
theorem of_refused {kind : Scalar} {v : kind.Val} (hwidth : kind.width = 1)
    (h : Took (.write (.scalar kind v) : Deed σ) (.written (.error fault)) bs) : bs = [] := by
  cases h with
  | written hportion =>
    obtain ⟨⟨hfront, -⟩, hshort⟩ := hportion
    have hlength : (kind.encode v).length = 1 := (kind.length_encode v).trans hwidth
    have hne : bs ≠ kind.encode v := by
      intro heq
      have hempty : kind.encode v = [] := hshort (fun h => by cases h) heq
      rw [hempty] at hlength
      cases hlength
    have hle := hfront.length_le
    have hlt : bs.length ≠ (kind.encode v).length := fun heq => hne (hfront.eq_of_length heq)
    exact List.length_eq_zero_iff.1 (by simp only [Value.encode] at hle; omega)

end Took

variable [Source σ] [Supply σ] [Sink τ] [Meter τ]

/-- The bytes that were accepted at each of the deeds of a run: the upshot tells of them, and they
went through the sink. -/
inductive Accepted : τ → List (Deed σ) → List (List UInt8) → Prop
  | nil (t) : Accepted t [] []
  | cons {t deed rest bs log} :
    (deed.perform.Ends t fun answer u =>
      ∃ upshot, answer = .ok upshot ∧ deed.Took upshot bs ∧ Moved t bs u) →
    Accepted (deed.perform.run t).state rest log → Accepted t (deed :: rest) (bs :: log)

theorem Accepted.eq_nil {t : τ} {log : List (List UInt8)}
    (h : Accepted t ([] : List (Deed σ)) log) : log = [] := by
  cases h
  rfl

/-- What comes of the first deed tells which bytes were accepted then. -/
theorem Accepted.head {t : τ} {deed : Deed σ} {rest : List (Deed σ)} {log : List (List UInt8)}
    {u : Upshot σ} (h : Accepted t (deed :: rest) log)
    (hanswer : (deed.perform.run t).answer = .ok u) :
    ∃ bs more, log = bs :: more ∧ deed.Took u bs ∧
      Accepted (deed.perform.run t).state rest more := by
  cases h with
  | cons hends hrest =>
    obtain ⟨u', hu', htook, -⟩ := hends
    obtain rfl := Except.ok.inj (hanswer.symm.trans hu')
    exact ⟨_, _, rfl, htook, hrest⟩

/-- What went through in a run are the bytes that were accepted, in order. -/
theorem Accepted.moved {t : τ} {deeds : List (Deed σ)} {log : List (List UInt8)}
    (h : Accepted t deeds log) : Moved t log.flatten (run t deeds) := by
  induction h with
  | nil t => exact Meter.refl t
  | cons hends _ ih =>
    obtain ⟨upshot, -, -, hmoved⟩ := hends
    exact Meter.trans hmoved ih

variable [MeteredSource σ] [CandidSource σ] [OrderlySink τ]

omit [Source σ] [Supply σ] [Meter σ] [MeteredSource σ] [CandidSource σ] in
theorem ends_drain_rest (t : τ) {region : Region} (hregion : region.WellFormed) :
    (Sink.drain : Action (τ × Region) Unit).Ends (t, region) fun answer p =>
      answer ≠ .ok () → region.remaining ≠ 0 → p.2.remaining ≠ 0 := by
  by_cases hroom : region.remaining = 0
  · exact fun _ hne => absurd hroom hne
  · exact (OrderlySink.leavesRest t region hregion hroom).mono fun _ _ h hne _ => h hne

/-- Every deed says which bytes it was that the sink has accepted. -/
theorem ends_perform (deed : Deed σ) (t : τ) :
    deed.perform.Ends t fun answer u =>
      ∃ upshot bs, answer = .ok upshot ∧ deed.Took upshot bs ∧ Moved t bs u := by
  cases deed with
  | write v =>
    rw [perform, ends_map, ends_attempt]
    refine (v.offers_write t).mono ?_
    rintro answer u ⟨front, hmoved, hportion⟩
    exact ⟨_, front, rfl, .written hportion, hmoved⟩
  | drain region wellFormed =>
    simp only [perform, bind_pure_comp, ends_map, ends_alongside, ends_attempt]
    refine ((MeteredSink.drain t region wellFormed).and (ends_drain_rest t wellFormed)).mono ?_
    rintro answer ⟨u, q⟩ ⟨⟨n, hn, hmoved, rfl⟩, hrest⟩
    refine ⟨_, _, rfl, .drained hn fun hne hroom => ?_, hmoved⟩
    have hleft := hrest hne hroom
    rw [Region.remaining_skip] at hleft
    omega
  | flush =>
    rw [perform, ends_map, ends_attempt]
    refine (MeteredSink.flush t).mono ?_
    intro answer u hmoved
    exact ⟨_, [], rfl, .flushed, hmoved⟩
  | close =>
    rw [perform, ends_map, ends_attempt]
    refine (MeteredSink.close t).mono ?_
    intro answer u hmoved
    exact ⟨_, [], rfl, .closed, hmoved⟩
  | transfer p source =>
    rw [ends_transfer]
    refine (Plan.ends_run_conveyed p source t).mono ?_
    rintro answer ⟨source', u⟩ ⟨given, hmoved, hconveyed⟩
    exact ⟨_, given, rfl, .transferred hconveyed, hmoved⟩
  | transferThrough p source region =>
    rw [ends_transferThrough]
    refine (Plan.ends_runThrough_conveyed p source t region).mono ?_
    rintro answer ⟨⟨source', u⟩, region'⟩ ⟨given, hmoved, hconveyed⟩
    exact ⟨_, given, rfl, .transferredThrough hconveyed, hmoved⟩

/-- So does every run. -/
theorem exists_accepted (t : τ) (deeds : List (Deed σ)) :
    ∃ log : List (List UInt8), Accepted t deeds log := by
  induction deeds generalizing t with
  | nil => exact ⟨[], .nil t⟩
  | cons deed rest ih =>
    obtain ⟨upshot, bs, hanswer, htook, hmoved⟩ := ends_perform deed t
    obtain ⟨log, hlog⟩ := ih (deed.perform.run t).state
    exact ⟨bs :: log, .cons ⟨upshot, hanswer, htook, hmoved⟩ hlog⟩

end Deed

end ByteFlow
