import ByteFlow.Proofs.Refusal
import ByteFlow.Proofs.Transfer.Negotiation
import ByteFlow.Proofs.Transfer.Round
import ByteFlow.Scripted.Stream

/-!
# The way that a transfer goes

A transfer that picks its own way looks at its buffer size, at its limit, and at what the endpoints
on both sides say of buffers.  How the endpoints are put together has no influence: it is the same
for every order of the members of a chain, and for chains in a chain.

## Main definitions

* `Plan.strategyFor` — the way for endpoints with some preferences.
* `Plan.follow` — a transfer that goes a given way.
* `Plan.announcement` — what is traced before it goes there.
* `Plan.strategy_of_leaves` — a transfer that picks its way goes the one for the endpoints.
-/

namespace ByteFlow.Plan

open ByteFlow.Action

variable {P Q L M σ τ : Type} (p : Plan)

/-- The way for endpoints with these preferences: byte by byte if there is to be no buffer or none
of them has a use for it, and otherwise in rounds through a buffer that is `indirect` if one of them
asks for that. -/
def strategyFor (preferences : List Preference) : Strategy :=
  if p.bufferSize = 0 ∨ ∀ preference ∈ preferences, preference = .unsupported then .unbuffered
  else .buffered (if .indirect ∈ preferences then .indirect else .direct) p.capacity

/-- A transfer that goes the given way. -/
def follow [Source σ] [Supply σ] [Sink τ] : Strategy → Action (σ × τ) Summary
  | .unbuffered => p.runUnbuffered
  | .buffered placement capacity => do
    let (summary, _) ← alongside (Region.allocate capacity placement) p.runBetween
    pure summary

/-- What is traced of the choice: the way, and what the sides have agreed on. -/
def announcement (preference : Preference) : Strategy → Event
  | .unbuffered => .unbuffered preference p.bufferSize
  | .buffered placement capacity => .buffered placement capacity preference

/-! ## Which way it is -/

/-- What two sides agree on says enough of the endpoints. -/
theorem strategyFor_of_sumsUp {preference : Preference} {parts : List Preference}
    (h : preference.SumsUp parts) :
    p.strategyFor parts =
      match preference.placement, p.bufferSize with
      | some placement, _ + 1 => .buffered placement p.capacity
      | _, _ => .unbuffered := by
  simp only [strategyFor, ← h.unsupported_iff, ← h.indirect_iff]
  cases hsize : p.bufferSize with
  | zero => cases preference <;> rfl
  | succ n => cases preference <;> simp [Preference.placement]

/-- The order of the endpoints makes no difference. -/
theorem strategyFor_perm {parts others : List Preference} (h : parts.Perm others) :
    p.strategyFor parts = p.strategyFor others := by
  simp only [strategyFor, h.mem_iff]

/-! ## Going that way -/

section Follow

variable [Source σ] [Supply σ] [Sink τ]

/-- A plan with a buffer that is too large is refused at once. -/
theorem idle_run_of_oversized (h : maxBufferSize < p.bufferSize) (s : σ) (t : τ) :
    Idle p.run (s, t) (.error (.misuse (.oversizedBuffer p.bufferSize maxBufferSize))) := by
  rw [Idle, run, if_pos h]
  rfl

/-- Any other one is traced, and followed. -/
theorem run_eq_follow (h : p.bufferSize ≤ maxBufferSize) {s : σ} {t : τ} {parts : List Preference}
    (hparts : (Preference.negotiate (Source.preference s) (Sink.preference t)).SumsUp parts) :
    p.run.run (s, t) = ((p.follow (p.strategyFor parts)).run (s, t)).after
      #[p.announcement (Preference.negotiate (Source.preference s) (Sink.preference t))
        (p.strategyFor parts)] := by
  rw [p.strategyFor_of_sumsUp hparts, run, if_neg (Nat.not_lt.2 h), run_gets_bind]
  dsimp only
  generalize Preference.negotiate (Source.preference s) (Sink.preference t) = preference
  cases hplacement : preference.placement with
  | none => exact run_emit_bind ..
  | some placement =>
    cases hsize : p.bufferSize with
    | zero =>
      have hevent : p.announcement preference .unbuffered = .unbuffered preference 0 := by
        rw [announcement, hsize]
      dsimp only
      rw [hevent]
      exact run_emit_bind ..
    | succ n => exact run_emit_bind ..

/-- The strategy in a summary does not depend on how far the transfer came. -/
theorem strategy_eq_of_map {strategy : Strategy} {answer : Except Fault Unit} {f : Unit → Summary}
    (hf : ∀ a, (f a).strategy = strategy) {summary : Summary}
    (h : answer.map f = .ok summary) : summary.strategy = strategy := by
  cases answer with
  | error fault => cases h
  | ok a =>
    rw [← Except.ok.inj h]
    exact hf a

/-- The summary tells which way the transfer went. -/
theorem ends_follow (strategy : Strategy) (s : σ) (t : τ) :
    (p.follow strategy).Ends (s, t) fun answer _ =>
      ∀ summary, answer = .ok summary → summary.strategy = strategy := by
  cases strategy with
  | unbuffered =>
    rw [follow, ends_runUnbuffered]
    exact fun _ => strategy_eq_of_map fun _ => rfl
  | buffered placement capacity =>
    have hregion : (Region.allocate capacity placement).capacity = capacity :=
      Bytes.size_replicate capacity 0
    have hrounds : p.runBetween.Ends ((s, t), Region.allocate capacity placement) fun answer _ =>
        ∀ summary, answer = .ok summary → summary.strategy = .buffered placement capacity := by
      rw [ends_runBetween, ends_runBuffered]
      refine fun _ => strategy_eq_of_map fun _ => ?_
      rw [hregion]
      rfl
    rw [follow, ends_bind, ends_alongside]
    refine hrounds.mono fun answer q hanswer => ?_
    cases answer with
    | error fault => exact nofun
    | ok summary => exact hanswer

end Follow

/-! ## Trees -/

section Trees

variable [Source L] [Supply L] [SourcePolicy P] [Sink M] [SinkPolicy Q] {n m : Nat}

/-- What the endpoints on both sides say of buffers. -/
def endpointPreferences (s : Tree P L n) (t : Tree Q M m) : List Preference :=
  s.leaves.map Source.preference ++ t.leaves.map Sink.preference

/-- Between any two trees, a transfer that picks its own way is refused before anything happens if
the buffer asked for is too large, and only then.  Otherwise it is the transfer that goes the way
for the endpoints on both sides; it says so before it does anything else, and again in its summary.
This way is the same if chains are reordered or flattened anywhere in the trees. -/
theorem strategy_of_leaves (s : Tree P L n) (t : Tree Q M m) :
    ((∃ misuse, Idle p.run (s, t) (.error (.misuse misuse))) ↔ maxBufferSize < p.bufferSize) ∧
    (p.bufferSize ≤ maxBufferSize →
      let strategy := p.strategyFor (endpointPreferences s t)
      let preference := Preference.negotiate (Source.preference s) (Sink.preference t)
      p.run.run (s, t) =
        ((p.follow strategy).run (s, t)).after #[p.announcement preference strategy] ∧
      p.run.Ends (s, t) fun answer _ =>
        ∀ summary, answer = .ok summary → summary.strategy = strategy) ∧
    ∀ (s' : Tree P L n) (t' : Tree Q M m), Tree.Rearranged s s' → Tree.Rearranged t t' →
      p.strategyFor (endpointPreferences s' t') = p.strategyFor (endpointPreferences s t) := by
  have hparts : (Preference.negotiate (Source.preference s) (Sink.preference t)).SumsUp
      (endpointPreferences s t) := (Tree.sumsUp_source s).negotiate (Tree.sumsUp_sink t)
  refine ⟨⟨?_, ?_⟩, fun hsize => ?_, fun s' t' hs ht => ?_⟩
  · rintro ⟨misuse, hidle⟩
    by_contra hsize
    have hrun := p.run_eq_follow (Nat.le_of_not_lt hsize) hparts
    have hevents : (#[] : Array Event) = #[_] ++ _ :=
      congrArg Outcome.events (hidle.symm.trans hrun)
    simp at hevents
  · exact fun hsize => ⟨_, p.idle_run_of_oversized hsize s t⟩
  · have hrun := p.run_eq_follow hsize hparts
    refine ⟨hrun, ?_⟩
    rw [Ends, hrun]
    exact p.ends_follow _ s t
  · exact p.strategyFor_perm ((hs.perm.symm.map _).append (ht.perm.symm.map _))

end Trees

/-- Two sources that have no use for a buffer, and one that takes any.  With that one last, in a
chain of its own, the preference is still open, and with it first in a flat chain it is not.  The
transfer goes the same way, and a plan with too large a buffer goes none. -/
theorem strategy_of_leaves_of_nested_chain :
    let plain : Tree StandardPolicy FaultySource 1 := Layer.endpoint { data := Bytes.ofList [1] }
    let willing : Tree StandardPolicy FaultySource 1 :=
      Layer.endpoint { data := Bytes.ofList [2, 3], preference := .any }
    let s : Tree StandardPolicy FaultySource 3 :=
      Tree.ofChain (.new .close [plain.lift, Tree.ofChain (.new .close [plain, willing])])
    let s' : Tree StandardPolicy FaultySource 3 :=
      Tree.ofChain (.new .close [willing.lift, plain.lift, plain.lift])
    let t : Tree StandardPolicy FaultySink 1 := Layer.endpoint {}
    let p : Plan := { limit := some 3, bufferSize := 10 }
    let oversized : Plan := { bufferSize := maxBufferSize + 1 }
    Source.preference s = .any ∧ Source.preference s' = .direct ∧ Tree.Rearranged s s' ∧
      p.strategyFor (endpointPreferences s t) = .buffered .direct 3 ∧
      p.strategyFor (endpointPreferences s' t) = p.strategyFor (endpointPreferences s t) ∧
      p.run.run (s, t) = ((p.follow (.buffered .direct 3)).run (s, t)).after
        #[.buffered .direct 3 .direct] ∧
      ∃ misuse, Idle oversized.run (s, t) (.error (.misuse misuse)) := by
  intro plain willing s s' t p oversized
  let flat : Tree StandardPolicy FaultySource 3 :=
    Tree.ofChain (.new .close [plain.lift, plain.lift, willing.lift])
  have hflat : Tree.Rearranged s flat :=
    @Tree.Rearranged.flatten _ _ _ _ _ _ [plain.lift] [] rfl rfl
  have hs : Tree.Rearranged s s' :=
    hflat.trans (.reorder (List.reverse_perm [willing.lift, plain.lift, plain.lift]))
  have hsize : p.bufferSize ≤ maxBufferSize := by decide
  have hstrategy : p.strategyFor (endpointPreferences s t) = .buffered .direct 3 := rfl
  have hagreed : Preference.negotiate (Source.preference s) (Sink.preference t) = .direct := rfl
  obtain ⟨-, hgoes, hsame⟩ := p.strategy_of_leaves s t
  obtain ⟨hrun, -⟩ := hgoes hsize
  rw [hstrategy, hagreed, announcement] at hrun
  exact ⟨rfl, rfl, hs, hstrategy, hsame s' t hs (.refl t), hrun,
    (oversized.strategy_of_leaves s t).1.2 (by decide)⟩

end ByteFlow.Plan
