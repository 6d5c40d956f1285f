import ByteFlow.Proofs.Keeping

/-!
# Loops that need no count

The loops that ask a device again count their turns, so that they end.  If every turn that asks for
another one leaves less to do, then the count is never used up: the loop does what its body does
when it is repeated for as long as it asks for it.

What a loop without a count comes to is fixed by its body.  So a map of states that the turns do not
notice, or that makes nothing of a turn here and there, is not noticed by the loop.

## Main definitions

* `Action.Stops` — the body, repeated without a count, comes to an end by itself.
* `Action.stops_repeatUntil` — so it does within a count that is large enough.
* `Action.Commutes` — the operation does not notice a map of its states.
* `Action.Stops.mapState` — a loop does not notice a map that may drop some of its turns.
-/

namespace ByteFlow

open ByteFlow.Action

variable {D σ τ ρ α β : Type}

namespace Action

/-- Repeated for as long as it answers none, the body comes to this end. -/
inductive Stops (body : Action σ (Option α)) : σ → Outcome σ α → Prop
  | done {s t a log} : body.run s = ⟨.ok (some a), t, log⟩ → Stops body s ⟨.ok a, t, log⟩
  | fault {s t fault log} : body.run s = ⟨.error fault, t, log⟩ →
    Stops body s ⟨.error fault, t, log⟩
  | next {s t log o} : body.run s = ⟨.ok none, t, log⟩ → Stops body t o →
    Stops body s (o.after log)

section Stops

variable {body : Action σ (Option α)} {otherwise : Action σ α} {s : σ} {o p : Outcome σ α}

/-- There is only one end. -/
theorem Stops.unique (ho : Stops body s o) (hp : Stops body s p) : o = p := by
  induction ho generalizing p with
  | done hrun =>
    cases hp with
    | done hother =>
      cases hrun.symm.trans hother
      rfl
    | fault hother => cases hrun.symm.trans hother
    | next hother => cases hrun.symm.trans hother
  | fault hrun =>
    cases hp with
    | done hother => cases hrun.symm.trans hother
    | fault hother =>
      cases hrun.symm.trans hother
      rfl
    | next hother => cases hrun.symm.trans hother
  | next hrun _ ih =>
    cases hp with
    | done hother => cases hrun.symm.trans hother
    | fault hother => cases hrun.symm.trans hother
    | next hother hrest =>
      cases hrun.symm.trans hother
      rw [ih hrest]

/-- A turn that asks for another one leaves less to do. -/
def Lessens (measure : σ → Nat) (body : Action σ (Option α)) : Prop :=
  ∀ s, body.Ends s fun answer t => answer = .ok none → measure t < measure s

/-- A count that is larger than what there is to do is not used up. -/
theorem stops_repeatUntil {measure : σ → Nat} (h : Lessens measure body) {n : Nat}
    (hn : measure s < n) : Stops body s ((repeatUntil n body otherwise).run s) := by
  induction n generalizing s with
  | zero => exact absurd hn (Nat.not_lt_zero _)
  | succ n ih =>
    rw [repeatUntil_succ]
    rcases hrun : body.run s with ⟨fault | _ | a, t, log⟩
    · rw [run_bind_of_error hrun]
      exact .fault hrun
    · have hless : measure t < measure s := by
        have hturn := h s
        rw [Ends, hrun] at hturn
        exact hturn rfl
      rw [run_bind_of_ok hrun]
      exact .next hrun (ih (by omega))
    · rw [run_bind_of_ok hrun, run_pure, Outcome.after, Array.append_empty]
      exact .done hrun

end Stops

/-! ## Maps of states -/

section Commutes

variable {f : σ → σ}

/-- The operation does to the image of a state what it does to the state. -/
def Commutes (f : σ → σ) (x : Action σ α) : Prop :=
  ∀ s, x.run (f s) = (x.run s).mapState f

/-- It is the first operation that has to be looked at in a state, and the second one in all. -/
theorem run_bind_mapState {x : Action σ α} {g : α → Action σ β} {s : σ}
    (hx : x.run (f s) = (x.run s).mapState f) (hg : ∀ a, Commutes f (g a)) :
    (x >>= g).run (f s) = ((x >>= g).run s).mapState f := by
  rw [run_bind, run_bind, hx]
  rcases x.run s with ⟨fault | a, t, log⟩
  · rfl
  · exact congrArg (Outcome.after log) (hg a t)

/-- The map of the first component. -/
def besideAll (f : σ → σ) (p : σ × ρ) : σ × ρ := (f p.1, p.2)

/-- States with the same image cannot be told apart. -/
theorem Commutes.alike {x : Action σ α} (h : Commutes f x) :
    Alike (fun s t => f s = f t) x x := by
  intro s t hst
  have heq : (x.run s).mapState f = (x.run t).mapState f := by
    rw [← h s, ← h t, hst]
  obtain ⟨hanswer, hstate, hevents⟩ := (Outcome.mk.injEq ..).mp heq
  exact ⟨hanswer, hevents, hstate⟩

theorem Commutes.alikeBeside {x : Action (σ × ρ) α} (h : Commutes (besideAll f) x) :
    Alike (Beside fun s t => f s = f t) x x := by
  rintro p q ⟨hfirst, hsecond⟩
  obtain ⟨hanswer, hevents, hstate⟩ := h.alike p q (Prod.ext hfirst hsecond)
  exact ⟨hanswer, hevents, Prod.mk.inj hstate⟩

/-- A loop does not notice the map if a turn either does not notice it, or does nothing but ask for
another turn and go to a state with the same image. -/
theorem Stops.mapState {body : Action σ (Option α)}
    (hturn : ∀ s, (∃ t, body.run s = ⟨.ok none, t, #[]⟩ ∧ f t = f s) ∨
      body.run (f s) = (body.run s).mapState f) {s : σ} {o : Outcome σ α}
    (h : Stops body s o) : Stops body (f s) (o.mapState f) := by
  induction h with
  | @done s _ _ _ hrun =>
    obtain ⟨t, hidle, -⟩ | hsame := hturn s
    · cases hrun.symm.trans hidle
    · rw [hrun] at hsame
      exact .done hsame
  | @fault s _ _ _ hrun =>
    obtain ⟨t, hidle, -⟩ | hsame := hturn s
    · cases hrun.symm.trans hidle
    · rw [hrun] at hsame
      exact .fault hsame
  | @next s _ _ o hrun _ ih =>
    obtain ⟨t, hidle, hback⟩ | hsame := hturn s
    · cases hrun.symm.trans hidle
      rw [Outcome.after_empty, ← hback]
      exact ih
    · rw [hrun] at hsame
      exact .next hsame ih

/-- So an operation that comes to the end of a loop does not notice the map either. -/
theorem Commutes.of_stops {body : Action σ (Option α)} {x : Action σ α}
    (hx : ∀ s, Stops body s (x.run s))
    (hturn : ∀ s, (∃ t, body.run s = ⟨.ok none, t, #[]⟩ ∧ f t = f s) ∨
      body.run (f s) = (body.run s).mapState f) : Commutes f x :=
  fun s => (hx (f s)).unique ((hx s).mapState hturn)

end Commutes

/-- An operation with one answer, which is not to take another turn. -/
def Concludes (x : Action σ (Option α)) : Prop := (∃ a, x = pure (some a)) ∨ ∃ fault, x = fail fault

theorem Concludes.commutes {x : Action σ (Option α)} (h : Concludes x) (f : σ → σ) :
    Commutes f x := by
  obtain ⟨a, rfl⟩ | ⟨fault, rfl⟩ := h
  · exact fun _ => rfl
  · exact fun _ => rfl

theorem Concludes.ends_ne {x : Action σ (Option α)} (h : Concludes x) (s : σ) :
    x.Ends s fun answer _ => answer ≠ .ok none := by
  obtain ⟨a, rfl⟩ | ⟨fault, rfl⟩ := h
  · exact nofun
  · exact nofun

end Action

/-! ## Turns at a device -/

section Turns

variable {f : D → D} {once : Action (D × Region) (Except IoError Nat)}
  {stop : Action (D × Region) (Option Unit)} {onError : IoError → Action (D × Region) (Option Unit)}
  {d : D} {r : Region}

/-- A move at the device is interrupted, which the map makes nothing of, or does not notice the
map. -/
def Dismisses (f : D → D) (once : Action (D × Region) (Except IoError Nat)) : Prop :=
  ∀ d r, (∃ e d', e.kind = .interrupted ∧ once.run (d, r) = ⟨.ok (.error e), (d', r), #[]⟩ ∧
      f d' = f d) ∨
    once.run (f d, r) = (once.run (d, r)).mapState (besideAll f)

/-- What a turn makes of a move. -/
def afterMove (stop : Action (D × Region) (Option Unit))
    (onError : IoError → Action (D × Region) (Option Unit)) :
    Except IoError Nat → Action (D × Region) (Option Unit)
  | .ok 0 => stop
  | .ok _ => pure none
  | .error e => if e.kind = .interrupted then pure none else onError e

theorem run_deviceTurn_of_full (hfull : r.remaining = 0) :
    (deviceTurn once stop onError).run (d, r) = ⟨.ok (some ()), (d, r), #[]⟩ := by
  have hroom : r.hasRemaining = false := by simpa using hfull
  rw [deviceTurn, run_gets_bind]
  simp only [hroom, Bool.false_eq_true, if_false, run_pure]

/-- A turn that has something to do moves once, and says what that means. -/
theorem run_deviceTurn_of_room (hroom : r.remaining ≠ 0) :
    (deviceTurn once stop onError).run (d, r) =
      (once >>= afterMove stop onError).run (d, r) := by
  have hroom : r.hasRemaining = true := by simpa using hroom
  rw [deviceTurn, run_gets_bind]
  simp only [hroom, if_true]
  refine congrArg (fun g => (once >>= g).run (d, r)) (funext fun moved => ?_)
  rcases moved with e | _ | count <;> rfl

/-- So a turn is one that the map makes nothing of, or does not notice the map. -/
theorem Dismisses.deviceTurn (honce : Dismisses f once) (hstop : Concludes stop)
    (herror : ∀ e, Concludes (onError e)) (p : D × Region) :
    (∃ q, (deviceTurn once stop onError).run p = ⟨.ok none, q, #[]⟩ ∧
      besideAll f q = besideAll f p) ∨
    (deviceTurn once stop onError).run (besideAll f p) =
      ((deviceTurn once stop onError).run p).mapState (besideAll f) := by
  obtain ⟨d, r⟩ := p
  by_cases hroom : r.remaining = 0
  · right
    rw [besideAll, run_deviceTurn_of_full hroom, run_deviceTurn_of_full hroom]
    rfl
  obtain ⟨e, d', hkind, hrun, hback⟩ | hsame := honce d r
  · refine .inl ⟨(d', r), ?_, congrArg (·, r) hback⟩
    rw [run_deviceTurn_of_room hroom, run_bind_of_ok hrun, Outcome.after_empty, afterMove,
      if_pos hkind, run_pure]
  · right
    rw [besideAll, run_deviceTurn_of_room hroom, run_deviceTurn_of_room hroom]
    refine run_bind_mapState (f := besideAll f) hsame fun moved => ?_
    rcases moved with e | _ | count
    · rw [afterMove]
      split
      · exact fun _ => rfl
      · exact (herror e).commutes _
    · exact hstop.commutes _
    · exact fun _ => rfl

/-- A turn that asks for another one has moved something, or was interrupted. -/
theorem lessens_deviceTurn {measure : D × Region → Nat}
    (honce : ∀ d r, r.remaining ≠ 0 → once.Ends (d, r) fun answer q =>
      match answer with
      | .ok (.ok count) => count ≠ 0 → measure q < measure (d, r)
      | .ok (.error e) => e.kind = .interrupted → measure q < measure (d, r)
      | .error _ => True)
    (hstop : Concludes stop) (herror : ∀ e, Concludes (onError e)) :
    Lessens measure (deviceTurn once stop onError) := by
  rintro ⟨d, r⟩
  by_cases hroom : r.remaining = 0
  · rw [Ends, run_deviceTurn_of_full hroom]
    exact nofun
  rw [Ends, run_deviceTurn_of_room hroom]
  change (once >>= afterMove stop onError).Ends (d, r) fun answer q =>
    answer = .ok none → measure q < measure (d, r)
  refine (honce d r hroom).bind (fun moved q hq => ?_) fun _ _ _ => ?_
  · rcases moved with e | _ | count
    · rw [afterMove]
      split
      · exact fun _ => hq ‹_›
      · exact ((herror e).ends_ne q).mono fun _ _ hne heq => absurd heq hne
    · exact (hstop.ends_ne q).mono fun _ _ hne heq => absurd heq hne
    · exact fun _ => hq (Nat.succ_ne_zero count)
  · exact nofun

end Turns

end ByteFlow
