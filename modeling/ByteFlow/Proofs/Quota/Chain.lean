import ByteFlow.Proofs.Quota.Stack

/-!
# Trees at the foot of a stack

A chain has no bound of its own, so a stack may stand on it.  It tells how a byte went if its
members do: a member that has reached its end has let no byte through, and neither does leaving
it.  So any tree whose bound is not known may be at the foot of a stack, however it is made.

## Main definitions

* `Chain.ends_pull_moved` — the bytes that an operation on the active member tells of.
* Instances of `CandidSource` and `CandidSink` for trees.
-/

namespace ByteFlow

open ByteFlow.Action

variable {P L σ α : Type}

/-- An operation of a chain tells of its bytes what it tells of those of a member, if it tells of
none when it fails. -/
theorem Chain.ends_pull_moved [Meter σ] [ClosePolicy P σ] [QuietPolicy P σ]
    {settle : Action σ Unit} (hsettle : Quiet settle) {x : Action σ α}
    {R : Except Fault α → List UInt8 → Prop} (hR : ∀ fault bs, R (.error fault) bs ↔ bs = [])
    (hx : ∀ m, x.Ends m fun answer m' => ∃ bs, Moved m bs m' ∧ R answer bs) (c : Chain P σ) :
    (pull settle x).Ends c fun answer d => ∃ bs, Moved c bs d ∧ R answer bs := by
  generalize hahead : c.ahead = ahead
  induction ahead generalizing c with
  | nil =>
    rcases c with ⟨left, ahead, policy, closed⟩
    obtain rfl : ahead = [] := hahead
    rw [ends_pull_nil]
    exact ⟨[], Meter.refl _, (hR _ _).2 rfl⟩
  | cons m rest ih =>
    rcases c with ⟨left, ahead, policy, closed⟩
    obtain rfl : ahead = m :: rest := hahead
    rw [ends_pull_cons]
    refine (hx m).mono ?_
    rintro answer m' ⟨bs, hm, hbs⟩
    refine ⟨fun _ => ⟨bs, moved_active hm, hbs⟩, ?_⟩
    rintro rfl
    obtain rfl := (hR _ _).1 hbs
    refine (ends_leave_of_quiet hsettle rfl).mono ?_
    rintro moved d ⟨hleft, hrest⟩
    have hmoved : Moved (⟨left, m :: rest, policy, closed⟩ : Chain P σ) [] d :=
      Meter.trans (moved_active hm) hleft
    cases moved with
    | error fault => exact ⟨[], hmoved, (hR _ _).2 rfl⟩
    | ok _ =>
      -- the members after the one that was left are asked
      refine (ih d hrest).mono ?_
      rintro answer e ⟨cs, hcs, hanswer⟩
      exact ⟨cs, Meter.trans hmoved hcs, hanswer⟩

/-! ## Sources -/

section Sources

variable [Source σ] [Meter σ] [MeteredSource σ] [CandidSource σ] [ClosePolicy P σ]
  [QuietPolicy P σ]

omit [MeteredSource σ] in
theorem Chain.gives_readU8 :
    Gives (fun _ => True) (Source.readU8 : Action (Chain P σ) UInt8) 1 fun bs => bs.headD 0 := by
  refine fun c _ => ends_pull_moved (quiet_pure ()) ?_ (fun m => CandidSource.readU8 m trivial) c
  intro fault bs
  exact Nat.lt_one_iff.trans List.length_eq_zero_iff

instance [Source L] [Meter L] [MeteredSource L] [CandidSource L] :
    CandidSource (Layer P L σ) where
  bound_eq_none {s t bs} hmoved := by
    refine Layer.moved_cases
      (motive := fun s t => Source.bound s = none → Source.bound t = none) hmoved
      ?endpoint ?quota ?closing ?chain ?traced ?relay
    case endpoint => exact fun s t h => CandidSource.bound_eq_none (L := L) h
    case quota => exact fun s t h hs => by cases hs
    case closing => exact fun s t h => CandidSource.bound_eq_none (L := σ) h
    case chain => exact fun s t h hs => rfl
    case traced => exact fun s t h => CandidSource.bound_eq_none (L := σ) h
    case relay => exact fun s t h => CandidSource.bound_eq_none (L := σ) h
  readU8 s hs := by
    cases s with
    | endpoint s => exact CandidSource.readU8 s hs
    | quota q => exact Quota.gives_counted CandidSource.readU8 q hs
    | closing c => exact Closing.gives_whenOpen CandidSource.readU8 c hs
    | chain c => exact Chain.gives_readU8 c hs
    | traced t => exact CandidSource.readU8 t.inner hs
    | relay t => exact CandidSource.readU8 t.inner hs
  fill := MeteredSource.fill

end Sources

instance Tree.instCandidSource [Source L] [Meter L] [MeteredSource L] [CandidSource L] :
    (n : Nat) → CandidSource (Tree StandardPolicy L n)
  | 0 => ⟨fun {s} => Empty.elim s, fun s => Empty.elim s, fun s => Empty.elim s⟩
  | n + 1 =>
    have := instCandidSource n
    inferInstanceAs (CandidSource (Layer StandardPolicy L (Tree StandardPolicy L n)))

/-! ## Sinks -/

section Sinks

variable [Meter σ] [ClosePolicy P σ] [QuietPolicy P σ]

/-- A chain sends a byte if its members do. -/
theorem Chain.sends_pull {settle : Action σ Unit} (hsettle : Quiet settle)
    {put : UInt8 → Action σ Unit} (hput : Sends (fun _ => True) put) :
    Sends (fun _ => True) fun b => (pull settle (put b) : Action (Chain P σ) Unit) := by
  intro c b _
  have hmember (m : σ) : (put b).Ends m fun answer m' =>
      ∃ bs, Moved m bs m' ∧ bs = answer.toOption.elim [] fun _ => [b] := by
    refine (hput m b trivial).mono ?_
    intro answer m' hm
    cases answer with
    | error fault => exact ⟨[], hm, rfl⟩
    | ok _ => exact ⟨[b], hm, rfl⟩
  refine (ends_pull_moved hsettle (fun _ _ => Iff.rfl) hmember c).mono ?_
  rintro answer d ⟨bs, hd, rfl⟩
  cases answer with
  | error fault => exact hd
  | ok _ => exact hd

variable [Sink σ] [MeteredSink σ] [CandidSink σ]

instance [Sink L] [Meter L] [MeteredSink L] [CandidSink L] : CandidSink (Layer P L σ) where
  bound_eq_none {s t bs} hmoved := by
    refine Layer.moved_cases
      (motive := fun s t => Sink.bound s = none → Sink.bound t = none) hmoved
      ?endpoint ?quota ?closing ?chain ?traced ?relay
    case endpoint => exact fun s t h => CandidSink.bound_eq_none (L := L) h
    case quota => exact fun s t h hs => by cases hs
    case closing => exact fun s t h => CandidSink.bound_eq_none (L := σ) h
    case chain => exact fun s t h hs => rfl
    case traced => exact fun s t h => CandidSink.bound_eq_none (L := σ) h
    case relay => exact fun s t h => CandidSink.bound_eq_none (L := σ) h
  writeU8 s b hs := by
    cases s with
    | endpoint s => exact CandidSink.writeU8 s b hs
    | quota q => exact Quota.sends_counted CandidSink.writeU8 q b hs
    | closing c => exact Closing.sends_whenOpen CandidSink.writeU8 c b hs
    | chain c => exact Chain.sends_pull MeteredSink.flush CandidSink.writeU8 c b hs
    | traced t => exact CandidSink.writeU8 t.inner b hs
    | relay t => exact CandidSink.writeU8 t.inner b hs
  drain := MeteredSink.drain

end Sinks

instance Tree.instCandidSink [Sink L] [Meter L] [MeteredSink L] [CandidSink L] :
    (n : Nat) → CandidSink (Tree StandardPolicy L n)
  | 0 => ⟨fun {s} => Empty.elim s, fun s => Empty.elim s, fun s => Empty.elim s⟩
  | n + 1 =>
    have := instCandidSink n
    inferInstanceAs (CandidSink (Layer StandardPolicy L (Tree StandardPolicy L n)))

end ByteFlow
