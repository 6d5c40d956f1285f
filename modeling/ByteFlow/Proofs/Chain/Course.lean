import ByteFlow.Proofs.Layer

/-!
# Courses

Whatever a chain is called for, it touches its members one contact at a time.  Two things
are said about the contacts between two states of a chain, and together they say all.
Replayed on the policy and the members, the contacts lead from the one state to the other,
so nothing happened that is not among them.  And they are accepted by an automaton that has
the cursor for its state, so none of them was out of turn.

## Main definitions

* `SourceCall`, `SinkCall` — the operations of a stream, and `answers` for a run of them.
* `Chain.Contact` — what a chain does to one of its members.
* `Chain.Replay` — contacts, carried out on the policy and the members.
* `Chain.Stage.next` — which contact may follow, and where the chain stands after it.
* `Chain.Course` — both of these, for the contacts between two states of a chain.
* `Chain.Accepts.judged` — the policy is run on the members in order, once on each.
-/

namespace ByteFlow

open ByteFlow.Action

variable {P σ α β κ : Type}

/-! ## Calls -/

/-- An operation on a source, with what is handed to it. -/
inductive SourceCall where
  | readU8
  | readBytes (region : Region)
  | readUnits (n : Nat) (inHand : Array UInt16)
  | fill (region : Region)
  | close

/-- An operation on a sink, with what is handed to it. -/
inductive SinkCall where
  | writeU8 (v : UInt8)
  | writeBytes (bytes : Bytes)
  | writeUnits (units : Array UInt16)
  | drain (region : Region)
  | flush
  | close

/-- Make the call.  Only whether it failed is answered. -/
def SourceCall.perform [Source σ] : SourceCall → Action σ Unit
  | readU8 => do let _ ← (Source.readU8 : Action σ UInt8)
  | readBytes region => do let _ ← alongside region (Source.readBytes : Action (σ × Region) Unit)
  | readUnits n inHand => do
    let _ ← alongside inHand (Source.readUnits n : Action (σ × Array UInt16) Unit)
  | fill region => do let _ ← alongside region (Source.fill : Action (σ × Region) Unit)
  | close => Closeable.close

/-- Make the call.  Only whether it failed is answered. -/
def SinkCall.perform [Sink σ] : SinkCall → Action σ Unit
  | writeU8 v => Sink.writeU8 v
  | writeBytes bytes => Sink.writeBytes bytes
  | writeUnits units => Sink.writeUnits units
  | drain region => do let _ ← alongside region (Sink.drain : Action (σ × Region) Unit)
  | flush => Sink.flush
  | close => Closeable.close

/-- Make some calls, one after the other, whatever each of them answers. -/
def answers (perform : κ → Action σ Unit) : List κ → Action σ (List (Except Fault Unit))
  | [] => pure []
  | call :: others => do
    let answer ← attempt (perform call)
    let rest ← answers perform others
    pure (answer :: rest)

theorem ends_answers_cons (perform : κ → Action σ Unit) (call : κ) (others : List κ) (s : σ)
    (R : σ → Prop) :
    (answers perform (call :: others)).Ends s (fun _ t => R t) ↔
      (perform call).Ends s fun _ t => (answers perform others).Ends t fun _ u => R u := by
  rw [answers, ends_attempt_bind]
  simp only [bind_pure_comp, ends_map]

namespace Chain

/-! ## Contacts -/

/-- What a chain does to one of its members, and what came of it. -/
inductive Contact where
  /-- A caller's operation is handed on to the member. -/
  | used (member : Nat) (answer : Except Fault Unit)
  /-- The member is settled, for it is going to be left. -/
  | settled (member : Nat) (answer : Except Fault Unit)
  /-- The policy is run on the member. -/
  | judged (member : Nat) (answer : Except Fault Unit)
  /-- The member is closed, for the chain is. -/
  | shut (member : Nat) (answer : Except Fault Unit)

/-- The member that is touched. -/
def Contact.member : Contact → Nat
  | used member _ | settled member _ | judged member _ | shut member _ => member

/-- The member on which the policy was run, if that was the contact. -/
def Contact.judgedMember : Contact → Option Nat
  | judged member _ => some member
  | _ => none

/-- Whether the contact closed a member for good. -/
def Contact.isShut : Contact → Bool
  | shut _ _ => true
  | _ => false

/-- The operation answers so and leaves `t`. -/
def Results (x : Action σ α) (s : σ) (answer : Except Fault Unit) (t : σ) : Prop :=
  x.Ends s fun got u => answer = got.map (fun _ => ()) ∧ t = u

/-- What a chain can do to a member on its own account. -/
structure Hands (σ : Type) where
  /-- What an operation that is handed on may answer, and what it may leave. -/
  Uses : σ → Except Fault Unit → σ → Prop
  settle : Action σ Unit
  close : Action σ Unit

/-- What a contact does to the policy and the member.  Only judging touches the policy. -/
def Contact.Effect [ClosePolicy P σ] (hands : Hands σ) : Contact → P × σ → P × σ → Prop
  | used _ answer, p, q => q.1 = p.1 ∧ hands.Uses p.2 answer q.2
  | settled _ answer, p, q => q.1 = p.1 ∧ Results hands.settle p.2 answer q.2
  | judged _ answer, p, q => Results ClosePolicy.onClose p answer q
  | shut _ answer, p, q => q.1 = p.1 ∧ Results hands.close p.2 answer q.2

/-- One contact, carried out on the policy and all members.  No other member is touched. -/
def Touch [ClosePolicy P σ] (hands : Hands σ) (contact : Contact) (p q : P × List σ) : Prop :=
  ∃ m m', p.2[contact.member]? = some m ∧ contact.Effect hands (p.1, m) (q.1, m') ∧
    q.2 = p.2.set contact.member m'

/-- Contacts in a row, carried out on the policy and the members. -/
inductive Replay [ClosePolicy P σ] (hands : Hands σ) :
    List Contact → P × List σ → P × List σ → Prop
  | nil (p) : Replay hands [] p p
  | cons {contact log p q r} :
    Touch hands contact p q → Replay hands log q r → Replay hands (contact :: log) p r

/-! ## Whose turn it is -/

/-- Where a chain stands between two contacts. -/
inductive Stage where
  /-- It is open to calls. -/
  | idle (cursor : Cursor)
  /-- The member was settled, and the policy has to be run on it next. -/
  | leaving (member : Nat)

/-- The cursor at the member with the given number, or past the last of all. -/
def cursorAt (total i : Nat) : Cursor := if i < total then .active i else .exhausted

/-- Which contact may come next in a chain of so many members, and what it leads to. -/
def Stage.next (total : Nat) : Stage → Contact → Option Stage
  | .idle (.active i), .used j _ => if j = i then some (.idle (.active i)) else none
  | .idle (.active i), .settled j _ => if j = i then some (.leaving i) else none
  | .leaving i, .judged j _ => if j = i then some (.idle (cursorAt total (i + 1))) else none
  | .idle .exhausted, .shut j _ => if j + 1 = total then some (.idle .exhausted) else none
  | _, _ => none

/-- How many members were left for good. -/
def Stage.passed (total : Nat) : Stage → Nat
  | .idle (.active i) => i
  | .idle .exhausted => total
  | .leaving i => i

/-- The contacts are all in turn, and lead from the one stage to the other. -/
def Accepts (total : Nat) (stage : Stage) (log : List Contact) (stage' : Stage) : Prop :=
  log.foldlM (Stage.next total) stage = some stage'

/-- The contacts between two states of a chain: they account for all that has changed, they
are in turn, and the last member is closed at most once. -/
structure Course [ClosePolicy P σ] (hands : Hands σ) (c : Chain P σ) (log : List Contact)
    (d : Chain P σ) : Prop where
  replay : Replay hands log (c.policy, c.members) (d.policy, d.members)
  accepts : Accepts c.members.length (.idle c.cursor) log (.idle d.cursor)
  shuts : log.countP Contact.isShut + c.closed.toNat ≤ d.closed.toNat

/-- A fault of a member in use is the answer, and the cursor stays where it is, unless the
member has only come to its end. -/
def Heeds (answer : Except Fault α) (log : List Contact) (d : Chain P σ) : Prop :=
  ∀ i fault, .used i (.error fault) ∈ log → fault ≠ .endOfStream →
    answer = .error fault ∧ d.cursor = .active i

/-! ### Contacts in a row -/

theorem Accepts.nil (total : Nat) (stage : Stage) : Accepts total stage [] stage := rfl

theorem accepts_cons {total : Nat} {stage stage' : Stage} {contact : Contact}
    {log : List Contact} :
    Accepts total stage (contact :: log) stage' ↔
      ∃ between, stage.next total contact = some between ∧ Accepts total between log stage' := by
  rw [Accepts, List.foldlM_cons]
  exact Option.bind_eq_some_iff

theorem accepts_append {total : Nat} {stage stage' : Stage} {log more : List Contact} :
    Accepts total stage (log ++ more) stage' ↔
      ∃ between, Accepts total stage log between ∧ Accepts total between more stage' := by
  rw [Accepts, List.foldlM_append]
  exact Option.bind_eq_some_iff

/-- The member that the stage is about is one of so many. -/
def Stage.Within (total : Nat) : Stage → Prop
  | .idle (.active i) => i < total
  | .idle .exhausted => True
  | .leaving i => i < total

/-- The policy is run on a member exactly when that member is left. -/
theorem Stage.passed_of_next {total : Nat} {stage stage' : Stage} {contact : Contact}
    (hwithin : stage.Within total) (h : stage.next total contact = some stage') :
    stage'.Within total ∧
      (contact.judgedMember = none ∧ stage'.passed total = stage.passed total ∨
        contact.judgedMember = some (stage.passed total) ∧
          stage'.passed total = stage.passed total + 1) := by
  rcases stage with (i | _) | i
  · cases contact with
    | used j answer =>
      obtain ⟨rfl, h⟩ := Option.ite_none_right_eq_some.1 h
      cases h
      exact ⟨hwithin, .inl ⟨rfl, rfl⟩⟩
    | settled j answer =>
      obtain ⟨rfl, h⟩ := Option.ite_none_right_eq_some.1 h
      cases h
      exact ⟨hwithin, .inl ⟨rfl, rfl⟩⟩
    | judged j answer => cases h
    | shut j answer => cases h
  · cases contact with
    | shut j answer =>
      obtain ⟨-, h⟩ := Option.ite_none_right_eq_some.1 h
      cases h
      exact ⟨trivial, .inl ⟨rfl, rfl⟩⟩
    | _ => cases h
  · cases contact with
    | judged j answer =>
      obtain ⟨rfl, h⟩ := Option.ite_none_right_eq_some.1 h
      cases h
      have hlt : j < total := hwithin
      rw [cursorAt]
      by_cases hmore : j + 1 < total
      · rw [if_pos hmore]
        exact ⟨hmore, .inr ⟨rfl, rfl⟩⟩
      · rw [if_neg hmore]
        have htotal : total = j + 1 := by omega
        exact ⟨trivial, .inr ⟨rfl, htotal⟩⟩
    | _ => cases h

/-- The policy is run on the members in order, once on each member that is left. -/
theorem Accepts.judged {total : Nat} {stage stage' : Stage} {log : List Contact}
    (h : Accepts total stage log stage') (hwithin : stage.Within total) :
    stage.passed total ≤ stage'.passed total ∧
      log.filterMap Contact.judgedMember =
        List.range' (stage.passed total) (stage'.passed total - stage.passed total) := by
  induction log generalizing stage with
  | nil =>
    cases h
    simp
  | cons contact log ih =>
    obtain ⟨between, hnext, hrest⟩ := accepts_cons.1 h
    obtain ⟨hbetween, hpassed⟩ := Stage.passed_of_next hwithin hnext
    obtain ⟨hle, hjudged⟩ := ih hrest hbetween
    rcases hpassed with ⟨hnone, hsame⟩ | ⟨hsome, hsucc⟩
    · rw [List.filterMap_cons_none hnone, hjudged, hsame]
      exact ⟨by omega, rfl⟩
    · have hcount : stage'.passed total - stage.passed total =
          stage'.passed total - between.passed total + 1 := by omega
      rw [List.filterMap_cons_some hsome, hjudged, hsucc, hcount, List.range'_succ]
      exact ⟨by omega, by rw [hsucc]⟩

/-- What is accepted is accepted up to any contact. -/
theorem Accepts.of_prefix {total : Nat} {stage stage' : Stage} {log before : List Contact}
    (h : Accepts total stage log stage') (hbefore : before <+: log) :
    ∃ between, Accepts total stage before between := by
  obtain ⟨after, rfl⟩ := hbefore
  obtain ⟨between, hbetween, -⟩ := accepts_append.1 h
  exact ⟨between, hbetween⟩

section Courses

variable [ClosePolicy P σ] {hands : Hands σ}

theorem Touch.length_eq {contact : Contact} {p q : P × List σ} (h : Touch hands contact p q) :
    q.2.length = p.2.length := by
  obtain ⟨m, m', -, -, hq⟩ := h
  rw [hq, List.length_set]

theorem Replay.length_eq {log : List Contact} {p q : P × List σ} (h : Replay hands log p q) :
    q.2.length = p.2.length := by
  induction h with
  | nil => rfl
  | cons htouch _ ih => exact ih.trans htouch.length_eq

theorem Replay.append {log more : List Contact} {p q r : P × List σ} (h : Replay hands log p q)
    (h' : Replay hands more q r) : Replay hands (log ++ more) p r := by
  induction h with
  | nil => exact h'
  | cons htouch _ ih => exact .cons htouch (ih h')

/-- Whoever may do more may do the same. -/
theorem Replay.mono {Uses Uses' : σ → Except Fault Unit → σ → Prop} {settle close : Action σ Unit}
    {log : List Contact} {p q : P × List σ} (h : Replay ⟨Uses, settle, close⟩ log p q)
    (hUses : ∀ m answer m', Uses m answer m' → Uses' m answer m') :
    Replay ⟨Uses', settle, close⟩ log p q := by
  induction h with
  | nil => exact .nil _
  | @cons contact _ _ _ _ htouch _ ih =>
    obtain ⟨m, m', hm, heffect, hq⟩ := htouch
    refine .cons ⟨m, m', hm, ?_, hq⟩ ih
    cases contact with
    | used i answer => exact heffect.imp_right (hUses m answer m')
    | settled i answer => exact heffect
    | judged i answer => exact heffect
    | shut i answer => exact heffect

namespace Course

variable {c d e : Chain P σ} {log more : List Contact}

/-- Nothing happens as long as only the caller is busy. -/
theorem refl (hands : Hands σ) (c : Chain P σ) : Course hands c [] c :=
  ⟨.nil _, .nil _ _, Nat.le_of_eq (Nat.zero_add _)⟩

theorem trans (h : Course hands c log d) (h' : Course hands d more e) :
    Course hands c (log ++ more) e where
  replay := h.replay.append h'.replay
  accepts := by
    have hlength : d.members.length = c.members.length := h.replay.length_eq
    have hmore := h'.accepts
    rw [hlength] at hmore
    exact accepts_append.2 ⟨_, h.accepts, hmore⟩
  shuts := by
    have h₁ := h.shuts
    have h₂ := h'.shuts
    rw [List.countP_append]
    omega

theorem mono {Uses Uses' : σ → Except Fault Unit → σ → Prop} {settle close : Action σ Unit}
    (h : Course ⟨Uses, settle, close⟩ c log d)
    (hUses : ∀ m answer m', Uses m answer m' → Uses' m answer m') :
    Course ⟨Uses', settle, close⟩ c log d :=
  ⟨h.replay.mono hUses, h.accepts, h.shuts⟩

end Course

/-! ### Faults of members -/

/-- No member in use has failed, but for its end. -/
def Clean (log : List Contact) : Prop :=
  ∀ i fault, .used i (.error fault) ∈ log → fault = .endOfStream

theorem clean_nil : Clean [] := by
  intro i fault hmem
  cases hmem

theorem clean_used {i : Nat} {answer : Except Fault Unit}
    (h : ∀ fault, answer = .error fault → fault = .endOfStream) : Clean [.used i answer] := by
  intro j fault hmem
  cases List.mem_singleton.1 hmem
  exact h fault rfl

theorem Clean.append {log more : List Contact} (h : Clean log) (h' : Clean more) :
    Clean (log ++ more) := by
  intro i fault hmem
  rcases List.mem_append.1 hmem with hmem | hmem
  · exact h i fault hmem
  · exact h' i fault hmem

omit [ClosePolicy P σ] in
theorem Heeds.of_clean {log : List Contact} (h : Clean log) (answer : Except Fault α)
    (d : Chain P σ) : Heeds answer log d :=
  fun i fault hmem hne => absurd (h i fault hmem) hne

omit [ClosePolicy P σ] in
theorem Heeds.clean {log : List Contact} {a : α} {d : Chain P σ}
    (h : Heeds (.ok a) log d) : Clean log := by
  intro i fault hmem
  refine Classical.byContradiction fun hne => ?_
  exact absurd (h i fault hmem hne).1 nofun

omit [ClosePolicy P σ] in
theorem Heeds.append {log more : List Contact} {answer : Except Fault α} {d : Chain P σ}
    (h : Clean log) (h' : Heeds answer more d) : Heeds answer (log ++ more) d := by
  intro i fault hmem hne
  rcases List.mem_append.1 hmem with hmem | hmem
  · exact absurd (h i fault hmem) hne
  · exact h' i fault hmem hne

omit [ClosePolicy P σ] in
/-- Contacts that were heeded explain a fault that is handed on. -/
theorem Heeds.error {log : List Contact} {fault : Fault} {d : Chain P σ}
    (h : Heeds (.error fault : Except Fault α) log d) :
    Heeds (.error fault : Except Fault β) log d := by
  intro i other hmem hne
  obtain ⟨heq, hcursor⟩ := h i other hmem hne
  cases heq
  exact ⟨rfl, hcursor⟩

end Courses

end Chain

end ByteFlow
