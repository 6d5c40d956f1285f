import ByteFlow.Proofs.Quota.Ledger
import ByteFlow.Proofs.Quota.Sequence
import ByteFlow.Proofs.Refusal

/-!
# Stacks in use

A stack is used and built at the same time: bytes are read from it or written to it, and now and
then a layer is put on top or a quota is made smaller.  A ledger of all this accounts for every
quota in the stack.

Reading and writing differ only in how a quota is put on top and in what the operations are, so
the steps are taken and the ledger is kept for both of them at once.

## Main definitions

* `Stack`, `Stack.Step`, `Stack.run` — what may be done to a stack.
* `Usage` — reading from stacks, or writing to them.
* `Stack.History` — the ledger that belongs to some steps.
* `Quota.dry`, `Quota.full` — a quota that is used up.
* `Stack.quotas_inOrder` — what holds of every quota of every stack.
-/

namespace ByteFlow

open ByteFlow.Action

variable {P Q L K κ ρ σ τ α : Type}

/-! ## What is done to a stack -/

/-- The layer with a limit for its quota, if it is one. -/
def Layer.tighten (limit : Nat) : Layer P L σ → Layer P L σ
  | .quota q => .quota (q.tighten limit)
  | layer => layer

/-- Whether the layer is a quota. -/
def Layer.isQuota : Layer P L σ → Bool
  | .quota _ => true
  | _ => false

/-- The tree with a limit for the quota on top, if there is one. -/
def Tree.tighten (limit : Nat) : {n : Nat} → Tree P L n → Tree P L n
  | 0, t => t
  | _ + 1, t => Layer.tighten limit t

/-- Whether there is a quota on top. -/
def Tree.isQuota : {n : Nat} → Tree P L n → Bool
  | 0, t => Empty.elim t
  | _ + 1, t => Layer.isQuota t

/-- A stack, however high. -/
structure Stack (P L : Type) where
  depth : Nat
  tree : Tree P L depth

/-- What is done to a stack, given its operations. -/
inductive Stack.Step (P κ : Type) where
  /-- A quota is put on top. -/
  | bounded (limit : Nat)
  /-- The quota on top is made smaller; without one there, nothing is done. -/
  | tightened (limit : Nat)
  | withPolicy (policy : P)
  | traced (label : String)
  | relayed
  /-- An operation is performed. -/
  | served (call : κ)

/-- How stacks are bounded and what their operations are, in one of the two directions. -/
structure Usage (P L κ ρ : Type) where
  bounded : {n : Nat} → (limit : Nat) → Tree P L n → Quota (Tree P L n)
  perform : {n : Nat} → κ → Action (Tree P L n) ρ
  /-- What an operation relies on at the foot of the stack. -/
  Needs : κ → Prop
  /-- The bytes that an operation tells of. -/
  Tells : κ → ρ → List UInt8 → Prop

/-- Stacks from which bytes are read. -/
def Usage.reading [Source L] [Meter L] [SourcePolicy P] : Usage P L Query Response :=
  ⟨Source.bounded, Query.perform, Query.Needs L, Query.Gave⟩

/-- Stacks to which bytes are written. -/
def Usage.writing [Sink L] [SinkPolicy P] : Usage P L Delivery Receipt :=
  ⟨Sink.bounded, Delivery.perform, fun _ => True, Delivery.Took⟩

namespace Stack

/-- The stack after a step. -/
def apply (use : Usage P L κ ρ) (s : Stack P L) : Step P κ → Stack P L
  | .bounded limit => ⟨s.depth + 1, Layer.quota (use.bounded limit s.tree)⟩
  | .tightened limit => ⟨s.depth, s.tree.tighten limit⟩
  | .withPolicy policy => ⟨s.depth + 1, Layer.closing (.new policy s.tree)⟩
  | .traced label => ⟨s.depth + 1, Layer.traced ⟨s.tree, label⟩⟩
  | .relayed => ⟨s.depth + 1, Layer.relay ⟨s.tree⟩⟩
  | .served call => ⟨s.depth, ((use.perform call).run s.tree).state⟩

/-- The stack after some steps. -/
def run (use : Usage P L κ ρ) (s : Stack P L) (steps : List (Step P κ)) : Stack P L :=
  steps.foldl (apply use) s

/-- What may still pass the quotas of a stack, the outermost one first. -/
def quotas (s : Stack P L) : List Nat := s.tree.quotas

variable [Meter L]

/-- What a step has to be written down as.  An operation is written down by its bytes. -/
def Writes (use : Usage P L κ ρ) (s : Stack P L) : Step P κ → Entry → Prop
  | .bounded limit, entry => entry = .granted limit
  | .tightened limit, entry => entry = if s.tree.isQuota then .tightened limit else .crossed []
  | .served call, entry =>
    (use.perform call).Ends s.tree fun answer t =>
      ∃ reply bs, answer = .ok reply ∧ use.Tells call reply bs ∧ Moved s.tree bs t ∧
        entry = .crossed bs
  | _, entry => entry = .crossed []

/-- The steps that were taken, and the ledger in which they were written down. -/
inductive History (use : Usage P L κ ρ) : Stack P L → List (Step P κ) → List Entry → Prop
  | nil (s) : History use s [] []
  | cons {s step steps entry log} : s.Writes use step entry →
    History use (s.apply use step) steps log → History use s (step :: steps) (entry :: log)

end Stack

/-! ## A quota on top -/

theorem Tree.quotas_tighten {foot : L → Prop} (limit : Nat) {n : Nat} {t : Tree P L n}
    (ht : t.StandsOn foot) :
    (t.tighten limit).StandsOn foot ∧ (t.tighten limit).quotas =
      if t.isQuota then t.quotas.modifyHead (min limit) else t.quotas := by
  cases n with
  | zero => exact Empty.elim t
  | succ n =>
    cases t with
    | endpoint s => exact ⟨ht, rfl⟩
    | quota q => exact ⟨ht, rfl⟩
    | closing c => exact ⟨ht, rfl⟩
    | chain c => exact ht.elim
    | traced t => exact ⟨ht, rfl⟩
    | relay t => exact ⟨ht, rfl⟩

/-! ## The ledger of a run -/

section Runs

variable [Meter L] {use : Usage P L κ ρ} {foot : L → Prop}

/-- A stack knows its tightest quota, and an operation on a stack with quotas tells which bytes
went through. -/
structure Usage.Sound (use : Usage P L κ ρ) (foot : L → Prop) : Prop where
  charges : ∀ n, Charges (Tree.StandsOn foot : Tree P L n → Prop) Tree.quotas
  bounded_eq : ∀ {n : Nat} {t : Tree P L n} (limit : Nat), t.StandsOn foot →
    use.bounded limit t = ⟨t, Quota.tightest limit t.quotas.head?⟩
  ends_perform : ∀ {n : Nat} {t : Tree P L n} (call : κ), use.Needs call → t.StandsOn foot →
    t.quotas ≠ [] → (use.perform call).Ends t fun answer u =>
      ∃ reply bs, answer = .ok reply ∧ use.Tells call reply bs ∧ Moved t bs u

/-- The step is written down as the entry, and the quotas of the stack become what it says. -/
structure Stack.Posts (use : Usage P L κ ρ) (foot : L → Prop) (s : Stack P L) (step : Step P κ)
    (entry : Entry) : Prop where
  writes : s.Writes use step entry
  covered : entry.Covered s.quotas
  standsOn : (s.apply use step).tree.StandsOn foot
  quotas_eq : (s.apply use step).quotas = entry.settle s.quotas

namespace Stack

variable {s : Stack P L}

theorem posts_bounded (h : use.Sound foot) (hs : s.tree.StandsOn foot) (limit : Nat) :
    Posts use foot s (.bounded limit) (.granted limit) := by
  have hbounded := h.bounded_eq limit hs
  refine ⟨rfl, trivial, ?_, ?_⟩
  · change Tree.StandsOn foot (use.bounded limit s.tree).inner
    rwa [hbounded]
  · change (use.bounded limit s.tree).remaining :: (use.bounded limit s.tree).inner.quotas = _
    rw [hbounded]
    rfl

theorem posts_unchanged {step : Step P κ} (hwrites : s.Writes use step (.crossed []))
    (hstands : (s.apply use step).tree.StandsOn foot)
    (hquotas : (s.apply use step).quotas = s.quotas) :
    Posts use foot s step (.crossed []) :=
  ⟨hwrites, fun _ _ => Nat.zero_le _, hstands, hquotas.trans (Entry.settle_crossed_nil _).symm⟩

/-- Every step on a stack with quotas can be written down. -/
theorem exists_posts (h : use.Sound foot) (hs : s.tree.StandsOn foot) (hquotas : s.quotas ≠ [])
    (step : Step P κ) (hneeds : ∀ call, step = .served call → use.Needs call) :
    ∃ entry, Posts use foot s step entry := by
  cases step with
  | bounded limit => exact ⟨_, posts_bounded h hs limit⟩
  | tightened limit =>
    obtain ⟨hstands, heq⟩ := Tree.quotas_tighten limit hs
    cases hquota : s.tree.isQuota with
    | false =>
      rw [hquota] at heq
      refine ⟨_, posts_unchanged ?_ hstands heq⟩
      simp [Writes, hquota]
    | true =>
      rw [hquota] at heq
      refine ⟨.tightened limit, ?_, hquotas, hstands, heq⟩
      simp [Writes, hquota]
  | withPolicy policy => exact ⟨_, posts_unchanged rfl hs rfl⟩
  | traced label => exact ⟨_, posts_unchanged rfl hs rfl⟩
  | relayed => exact ⟨_, posts_unchanged rfl hs rfl⟩
  | served call =>
    obtain ⟨reply, bs, hanswer, htells, hmoved⟩ := h.ends_perform call (hneeds call rfl) hs hquotas
    obtain ⟨hstands, hcovered, heq⟩ := h.charges _ hs hmoved
    exact ⟨.crossed bs, ⟨reply, bs, hanswer, htells, hmoved, rfl⟩, hcovered, hstands, heq⟩

/-- All steps on a stack with quotas can be written down. -/
theorem exists_history (h : use.Sound foot) (hs : s.tree.StandsOn foot) (hquotas : s.quotas ≠ [])
    (steps : List (Step P κ)) (hneeds : ∀ call, .served call ∈ steps → use.Needs call) :
    ∃ log, History use s steps log ∧ Clears s.quotas log (s.run use steps).quotas := by
  induction steps generalizing s with
  | nil => exact ⟨[], .nil s, .nil _⟩
  | cons step steps ih =>
    obtain ⟨entry, hposts⟩ := exists_posts h hs hquotas step
      fun call hcall => hneeds call (List.mem_cons.2 (.inl hcall.symm))
    have hquotas' : (s.apply use step).quotas ≠ [] := by
      rw [hposts.quotas_eq]
      exact Entry.settle_ne_nil hquotas entry
    obtain ⟨log, hlog, hrest⟩ := ih hposts.standsOn hquotas'
      fun call hcall => hneeds call (List.mem_cons_of_mem _ hcall)
    rw [hposts.quotas_eq] at hrest
    exact ⟨entry :: log, .cons hposts.writes hlog, .cons hposts.covered hrest⟩

/-- A stack without quotas is given one, and whatever is done then, its ledger is in order. -/
theorem exists_inOrder (h : use.Sound foot) (hs : s.tree.StandsOn foot) (hbare : s.quotas = [])
    (limit : Nat) (steps : List (Step P κ))
    (hneeds : ∀ call, .served call ∈ steps → use.Needs call) :
    ∃ log, History use s (.bounded limit :: steps) log ∧
      InOrder log (s.run use (.bounded limit :: steps)).quotas := by
  have hposts := posts_bounded h hs limit
  have hquotas : (s.apply use (.bounded limit)).quotas ≠ [] := by
    rw [hposts.quotas_eq]
    exact List.cons_ne_nil _ _
  obtain ⟨log, hlog, hclears⟩ := exists_history h hposts.standsOn hquotas steps hneeds
  rw [hposts.quotas_eq, hbare] at hclears
  exact ⟨_, .cons hposts.writes hlog, Clears.inOrder (.cons trivial hclears)⟩

end Stack

end Runs

theorem Usage.sound_reading [Source L] [Meter L] [CandidSource L] [SourcePolicy P] :
    (Usage.reading : Usage P L Query Response).Sound fun s => Source.bound s = none where
  charges := Tree.charges fun hs hmoved => CandidSource.bound_eq_none hmoved hs
  bounded_eq {n t} limit ht :=
    have hbound := (Tree.candid_source n).bound_eq ht
    congrArg (fun bound => Quota.mk t (Quota.tightest limit bound)) hbound
  ends_perform {n _} call hneeds ht hquotas := by
    refine (Tree.candid_source n).ends_query
      (Tree.charges (fun hs hmoved => CandidSource.bound_eq_none hmoved hs) n) call ?_ ht hquotas
    rintro r hr hreadOnly rfl
    have _ : SparingSource L := hneeds
    exact Tree.ends_fill_spared ht hr hreadOnly

theorem Usage.sound_writing [Sink L] [Meter L] [CandidSink L] [SinkPolicy P] :
    (Usage.writing : Usage P L Delivery Receipt).Sound fun s => Sink.bound s = none where
  charges := Tree.charges fun hs hmoved => CandidSink.bound_eq_none hmoved hs
  bounded_eq {n t} limit ht :=
    have hbound := (Tree.candid_sink n).bound_eq ht
    congrArg (fun bound => Quota.mk t (Quota.tightest limit bound)) hbound
  ends_perform {n _} call _ ht hquotas :=
    (Tree.candid_sink n).ends_deliver
      (Tree.charges (fun hs hmoved => CandidSink.bound_eq_none hmoved hs) n) ht hquotas call

/-! ## A quota that is used up -/

namespace Quota

variable {q : Quota σ}

theorem idle_counted (hq : q.remaining = 0) (x : Action σ α) :
    Idle (counted x) q (.error .endOfStream) := by
  rcases q with ⟨inner, remaining⟩
  obtain rfl : remaining = 0 := hq
  rfl

theorem idle_clipped (hq : q.remaining = 0) (bulk : Action (σ × Region) Unit) (r : Region) :
    Idle (clipped bulk) (q, r) (.ok ()) := by
  rcases q with ⟨inner, remaining⟩
  obtain rfl : remaining = 0 := hq
  rfl

/-- A quota that is used up gives nothing, and the source under it is not asked. -/
theorem dry [Source σ] (hq : q.remaining = 0) : Source.Dry q :=
  .of_readU8 (idle_counted hq _) (idle_clipped hq _) rfl fun _ => rfl

/-- A quota that is used up takes nothing, and the sink under it is not asked. -/
theorem full [Sink σ] (hq : q.remaining = 0) : Sink.Full q :=
  .of_writeU8 (fun _ => idle_counted hq _) (idle_clipped hq _) (fun _ => rfl) fun _ => rfl

end Quota

/-! ## All stacks -/

/-- Put a quota on a stack over a stream without a bound, and then do to it what you like, in any
order and whatever fails on the way: put more quotas and other layers on top, make the quota on
top smaller, read or write, sequences among the rest, or fill a region that only gives bytes if
the stream at the foot takes none for it.  What is left of every quota is what it started with less
the bytes that went through since, and never less than that; it started with the limit, or with
what was left of the quota beneath if that was smaller.  So no quota is larger than one beneath it,
and no more bytes go through after a limit was set than it says.  A quota of which nothing is left
refuses whatever asks for a byte, and does not turn to the stream under it for anything; only a
fill or a drain is content with nothing. -/
theorem Stack.quotas_inOrder [Source L] [Meter L] [CandidSource L] [SourcePolicy P]
    [Sink K] [Meter K] [CandidSink K] [SinkPolicy Q] [Source σ] [Sink τ] :
    ((∀ s : Stack P L, s.tree.StandsOn (fun leaf => Source.bound leaf = none) → s.quotas = [] →
        ∀ limit steps, (∀ query : Query, .served query ∈ steps → query.Needs L) →
          ∃ log, History Usage.reading s (.bounded limit :: steps) log ∧
            InOrder log (s.run Usage.reading (.bounded limit :: steps)).quotas) ∧
      ∀ q : Quota σ, q.remaining = 0 → Source.Dry q) ∧
    (∀ s : Stack Q K, s.tree.StandsOn (fun leaf => Sink.bound leaf = none) → s.quotas = [] →
        ∀ limit steps, ∃ log, History Usage.writing s (.bounded limit :: steps) log ∧
          InOrder log (s.run Usage.writing (.bounded limit :: steps)).quotas) ∧
      ∀ q : Quota τ, q.remaining = 0 → Sink.Full q :=
  ⟨⟨fun _ hs hbare limit steps => exists_inOrder Usage.sound_reading hs hbare limit steps,
    fun _ hq => Quota.dry hq⟩,
    fun _ hs hbare limit steps =>
      exists_inOrder Usage.sound_writing hs hbare limit steps fun _ _ => trivial,
    fun _ hq => Quota.full hq⟩

/-- Chains at the foot of the stacks.  A trap in the second member cuts a sequence short, and the
limits that are set before and after it still hold, whatever else is read or filled; the same for a
string that is written. -/
theorem Stack.quotas_inOrder_of_traps :
    let trap : Trap := ⟨1, .corrupt .loneSurrogate⟩
    let s : Stack StandardPolicy (Tree StandardPolicy (SourceEnd ScriptedInput FaultySource) 2) :=
      ⟨1, Layer.endpoint (Layer.chain (.new .close
        [Layer.endpoint (.memory { data := Bytes.ofList [1, 2] }),
          Layer.endpoint (.outside { data := Bytes.ofList [3, 4, 5, 6, 7], traps := [trap] })]))⟩
    let ask (call : Request) : Stack.Step StandardPolicy Query := .served (.request call)
    let reads := [ask (.scalar .u16), .withPolicy .fence, .traced "top", .bounded 9,
      .served .sequence, .tightened 2,
      .served (.sealed (.wrapReadOnly (Bytes.ofList [0])) (Region.wellFormed_wrapReadOnly _) rfl),
      ask (.fill (.allocate 5 .indirect) (Region.writable_allocate ..)), .served .text]
    let t : Stack StandardPolicy (Tree StandardPolicy (SinkEnd ScriptedOutput FaultySink) 2) :=
      ⟨1, Layer.endpoint (Layer.chain (.new .close
        [Layer.endpoint (.memory { data := Bytes.ofList [0] }),
          Layer.endpoint (.outside { traps := [trap] })]))⟩
    let writes := [.served (.offer (.bytes (Bytes.ofList [1, 2, 3]))), .relayed, .bounded 2,
      .served (.text "seven")]
    (s.tree.StandsOn (fun leaf => Source.bound leaf = none) ∧ s.quotas = [] ∧
      ∃ log, History Usage.reading s (.bounded 6 :: reads) log ∧ InOrder log [0, 1]) ∧
    (t.tree.StandsOn (fun leaf => Sink.bound leaf = none) ∧ t.quotas = [] ∧
      ∃ log, History Usage.writing t (.bounded 5 :: writes) log ∧ InOrder log [0, 1]) ∧
    Source.Dry (⟨⟨Bytes.ofList [1], 0⟩, 0⟩ : Quota BareSource) ∧
    Sink.Full (⟨⟨Bytes.ofList [1]⟩, 0⟩ : Quota BareSink) := by
  intro trap s ask reads t writes
  obtain ⟨⟨hreads, hdry⟩, hwrites, hfull⟩ := quotas_inOrder
    (P := StandardPolicy) (L := Tree StandardPolicy (SourceEnd ScriptedInput FaultySource) 2)
    (Q := StandardPolicy) (K := Tree StandardPolicy (SinkEnd ScriptedOutput FaultySink) 2)
    (σ := BareSource) (τ := BareSink)
  have hs : (s.run Usage.reading (.bounded 6 :: reads)).quotas = [0, 1] := by decide +kernel
  have ht : (t.run Usage.writing (.bounded 5 :: writes)).quotas = [0, 1] := by decide +kernel
  have hsource : s.tree.StandsOn (fun leaf => Source.bound leaf = none) ∧ s.quotas = [] :=
    ⟨rfl, rfl⟩
  have hsink : t.tree.StandsOn (fun leaf => Sink.bound leaf = none) ∧ t.quotas = [] := ⟨rfl, rfl⟩
  have hneeds (query : Query) : query.Needs
      (Tree StandardPolicy (SourceEnd ScriptedInput FaultySource) 2) := by
    cases query with
    | sealed =>
      exact inferInstanceAs
        (SparingSource (Tree StandardPolicy (SourceEnd ScriptedInput FaultySource) 2))
    | _ => trivial
  refine ⟨⟨hsource.1, hsource.2, ?_⟩, ⟨hsink.1, hsink.2, ?_⟩, hdry _ rfl, hfull _ rfl⟩
  · rw [← hs]
    exact hreads s hsource.1 hsource.2 6 reads fun query _ => hneeds query
  · rw [← ht]
    exact hwrites t hsink.1 hsink.2 5 writes

end ByteFlow
