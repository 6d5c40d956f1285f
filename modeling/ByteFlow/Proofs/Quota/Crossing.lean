import ByteFlow.Proofs.Meter.Basic
import ByteFlow.Proofs.Reading
import ByteFlow.Proofs.Writing.Run

/-!
# What an operation says about the bytes

A data operation may fail with some of its bytes on this side and the others on that.  What it
answers, and what it leaves in the hands of the caller, still tells which bytes went through the
stream: all that were wanted if it succeeds, and some of them in front if it fails.

## Main definitions

* `Told n f answer bs` — `n` bytes made up the answer, or there were fewer and it is a fault.
* `Gives I x n f`, `Gathered` — operations of a source of which this holds.
* `Part bs answer front` — the bytes, or those in front if the answer is a fault.
* `Sends I put`, `HandsOn I x bs` — operations of a sink of which this holds.
* `Request.Gave`, `Offer.Took` — the bytes that a reply or a receipt tells of.
-/

namespace ByteFlow

open ByteFlow.Action

variable {σ α β : Type}

/-! ## Reading -/

/-- So many bytes made up the answer, or there were fewer of them and it is a fault. -/
def Told (n : Nat) (f : List UInt8 → α) (answer : Except Fault α) (bs : List UInt8) : Prop :=
  match answer with
  | .ok a => bs.length = n ∧ a = f bs
  | .error _ => bs.length < n

/-- The bytes of two operations in a row that share what was asked for. -/
theorem Told.append {n : Nat} {answer : Except Fault Unit} {bs more : List UInt8}
    (hbs : bs.length ≤ n) (h : Told (n - bs.length) (fun _ => ()) answer more) :
    Told n (fun _ => ()) answer (bs ++ more) := by
  cases answer with
  | error fault =>
    have hlength : more.length < n - bs.length := h
    rw [Told, List.length_append]
    omega
  | ok _ =>
    have hlength := h.1
    refine ⟨?_, rfl⟩
    rw [List.length_append]
    omega

section Reading

variable [Meter σ] {I : σ → Prop}

/-- The operation takes `n` bytes and answers what `f` makes of them, or it fails before. -/
def Gives (I : σ → Prop) (x : Action σ α) (n : Nat) (f : List UInt8 → α) : Prop :=
  ∀ s, I s → x.Ends s fun answer t => ∃ bs, Moved s bs t ∧ Told n f answer bs

/-- The bytes that went through are in the code units that were added, two in each. -/
def Gathered (s : σ) (n : Nat) (units : Array UInt16) (answer : Except Fault Unit)
    (p : σ × Array UInt16) : Prop :=
  ∃ bs, Moved s bs p.1 ∧ p.2 = units ++ (unitsOf bs).toArray ∧ bs.length ≤ 2 * n ∧
    (answer = .ok () → bs.length = 2 * n)

namespace Gives

variable {x : Action σ α} {n : Nat} {f : List UInt8 → α}

theorem map (h : Gives I x n f) (g : α → β) : Gives I (g <$> x) n fun bs => g (f bs) := by
  intro s hs
  rw [ends_map]
  refine (h s hs).mono ?_
  rintro answer t ⟨bs, hmoved, htold⟩
  refine ⟨bs, hmoved, ?_⟩
  cases answer with
  | error fault => exact htold
  | ok a => exact ⟨htold.1, congrArg g htold.2⟩

variable {next : Action σ UInt8} (hI : ∀ {s t : σ} {bs : List UInt8}, I s → Moved s bs t → I t)
include hI

/-- Bytes that are read one after the other are told of together. -/
theorem take (h : Gives I next 1 fun bs => bs.headD 0) (n : Nat) :
    Gives I (Bytewise.take next n) n fun bs => bs := by
  induction n with
  | zero => exact fun s _ => ⟨[], Meter.refl s, rfl, rfl⟩
  | succ n ih =>
    intro s hs
    rw [Bytewise.take_succ, ends_bind]
    refine (h s hs).mono ?_
    rintro answer t ⟨bs, hmoved, htold⟩
    cases answer with
    | error fault => exact ⟨bs, hmoved, Nat.lt_of_lt_of_le htold (Nat.le_add_left ..)⟩
    | ok b =>
      obtain ⟨hlength, rfl⟩ := htold
      obtain ⟨b, rfl⟩ := List.length_eq_one_iff.1 hlength
      refine (ih.map (b :: ·) t (hI hs hmoved)).mono ?_
      rintro answer u ⟨cs, hmoved', htold⟩
      refine ⟨b :: cs, Meter.trans hmoved hmoved', ?_⟩
      cases answer with
      | error fault => exact Nat.succ_lt_succ htold
      | ok bs => exact ⟨congrArg (· + 1) htold.1, htold.2⟩

/-- Code units that are read one after the other; a last byte on its own is lost. -/
theorem readUnits (h : Gives I next 1 fun bs => bs.headD 0) (n : Nat) (units : Array UInt16)
    {s : σ} (hs : I s) :
    (Bytewise.readUnits next n).Ends (s, units) (Gathered s n units) := by
  induction n generalizing s units with
  | zero =>
    rw [Bytewise.readUnits, repeatUntil_zero]
    exact ⟨[], Meter.refl s, by simp [unitsOf], Nat.le_refl _, fun _ => rfl⟩
  | succ n ih =>
    rw [Bytewise.ends_readUnits_succ, Bytewise.readUnit, bind_pure_comp]
    refine (((h.take hI 2).map _) s hs).mono ?_
    rintro answer t ⟨bs, hmoved, htold⟩
    cases answer with
    | error fault =>
      have hshort : bs.length < 2 := htold
      exact ⟨bs, hmoved, by simp [unitsOf_of_length_lt hshort], by omega, by simp⟩
    | ok unit =>
      obtain ⟨hlength, rfl⟩ := htold
      refine (ih _ (hI hs hmoved)).mono ?_
      rintro answer p ⟨cs, hmoved', hunits, hle, hall⟩
      refine ⟨bs ++ cs, Meter.trans hmoved hmoved', ?_, ?_, fun hok => ?_⟩
      · rw [unitsOf_eq_cons (by rw [List.length_append]; omega), ← hlength,
          List.take_left, List.drop_left, hunits]
        simp
      · rw [List.length_append]
        omega
      · rw [List.length_append, hall hok]
        omega

end Gives

end Reading

/-- The bytes that the reply to a request tells of. -/
inductive Request.Gave : Request → Reply → List UInt8 → Prop
  | scalar {kind answer bs} :
    Told kind.width kind.decode answer bs → Gave (.scalar kind) (.scalar kind answer) bs
  | bytes {region writable answer bs} : bs.length ≤ region.remaining →
    Gave (.bytes region writable) (.bytes answer (region.receive bs)) bs
  | units {n inHand answer bs} : bs.length ≤ 2 * n → (answer = .ok () → bs.length = 2 * n) →
    Gave (.units n inHand) (.units answer (inHand ++ (unitsOf bs).toArray)) bs
  | fill {region writable answer bs} : bs.length ≤ region.remaining →
    Gave (.fill region writable) (.fill answer (region.receive bs)) bs

/-! ## Writing -/

/-- All of the bytes, or those in front if the answer is a fault. -/
def Part (bs : List UInt8) (answer : Except Fault Unit) (front : List UInt8) : Prop :=
  front <+: bs ∧ (answer = .ok () → front = bs)

section Writing

variable [Meter σ] {I : σ → Prop}

/-- The byte goes through, or the operation fails and none does. -/
def Sends (I : σ → Prop) (put : UInt8 → Action σ Unit) : Prop :=
  ∀ s b, I s → (put b).Ends s fun answer t =>
    match answer with
    | .ok _ => Moved s [b] t
    | .error _ => Moved s [] t

/-- The operation hands the bytes on, or those in front if it fails. -/
def HandsOn (I : σ → Prop) (x : Action σ Unit) (bs : List UInt8) : Prop :=
  ∀ s, I s → x.Ends s fun answer t => ∃ front, Moved s front t ∧ Part bs answer front

theorem part_error (bs : List UInt8) (fault : Fault) : Part bs (.error fault) [] :=
  ⟨List.nil_prefix, fun h => by cases h⟩

theorem Sends.handsOn {put : UInt8 → Action σ Unit} (h : Sends I put) (b : UInt8) :
    HandsOn I (put b) [b] := by
  intro s hs
  refine (h s b hs).mono ?_
  intro answer t hmoved
  cases answer with
  | error fault => exact ⟨[], hmoved, part_error ..⟩
  | ok _ => exact ⟨[b], hmoved, List.prefix_rfl, fun _ => rfl⟩

/-- Writes in a row are one write of all their bytes. -/
theorem HandsOn.forEach (hI : ∀ {s t : σ} {bs : List UInt8}, I s → Moved s bs t → I t)
    {body : β → Action σ Unit} {bytes : β → List UInt8} (h : ∀ b, HandsOn I (body b) (bytes b))
    (entries : List β) : HandsOn I (Action.forEach entries body) (entries.flatMap bytes) := by
  induction entries with
  | nil => exact fun s _ => ⟨[], Meter.refl s, List.prefix_rfl, fun _ => rfl⟩
  | cons b rest ih =>
    intro s hs
    rw [ends_forEach_cons, List.flatMap_cons]
    refine (h b s hs).mono ?_
    rintro answer t ⟨front, hmoved, hprefix, hall⟩
    cases answer with
    | error fault =>
      exact ⟨front, hmoved, hprefix.trans (List.prefix_append ..), fun h => by cases h⟩
    | ok _ =>
      obtain rfl := hall rfl
      refine (ih t (hI hs hmoved)).mono ?_
      rintro answer u ⟨more, hmoved', hprefix, hall⟩
      refine ⟨_, Meter.trans hmoved hmoved', (List.prefix_append_right_inj _).2 hprefix, ?_⟩
      intro hok
      rw [hall hok]

namespace Sends

variable {put : UInt8 → Action σ Unit}
  (hI : ∀ {s t : σ} {bs : List UInt8}, I s → Moved s bs t → I t)
include hI

theorem writeList (h : Sends I put) (bs : List UInt8) :
    HandsOn I (Bytewise.writeList put bs) bs := by
  have hall := HandsOn.forEach hI h.handsOn bs
  rwa [List.flatMap_singleton'] at hall

theorem writeUnits (h : Sends I put) (units : Array UInt16) :
    HandsOn I (Bytewise.writeUnits put units) (unitBytes units.toList) :=
  HandsOn.forEach hI (fun _ => h.writeList hI _) units.toList

end Sends

/-- A bulk write succeeds when the drain has emptied the window. -/
theorem part_take (bytes : Bytes) (n : Nat) (answer : Except Fault Unit) :
    Part bytes.list
      (answer.bind fun _ =>
        if ((Region.wrapReadOnly bytes).skip n).remaining = 0 then .ok () else .error .endOfStream)
      (bytes.list.take n) := by
  refine ⟨List.take_prefix .., fun hok => ?_⟩
  cases answer with
  | error fault => cases hok
  | ok _ =>
    have hremaining : (Region.wrapReadOnly bytes).remaining = bytes.list.length := rfl
    simp only [Except.bind, Region.remaining_skip, hremaining] at hok
    have hall : bytes.list.length ≤ n := by
      by_contra hlt
      rw [if_neg (by omega)] at hok
      cases hok
    exact List.take_of_length_le hall

/-- A bulk write that is a drain hands on what the drain does. -/
theorem Sink.handsOn_drainCompletely {drain : Action (σ × Region) Unit} {s : σ}
    (h : ∀ r : Region, r.WellFormed → drain.Ends (s, r) fun _ p => Drained s r p) (bytes : Bytes) :
    (drainCompletely drain bytes).Ends s fun answer t =>
      ∃ front, Moved s front t ∧ Part bytes.list answer front := by
  rw [ends_drainCompletely]
  refine (h _ (Region.wellFormed_wrapReadOnly bytes)).mono ?_
  rintro answer ⟨t, q⟩ ⟨n, hn, hmoved, rfl⟩
  rw [Region.list_window_wrapReadOnly] at hmoved
  exact ⟨_, hmoved, part_take bytes n answer⟩

end Writing

/-- The bytes that the receipt for an offer tells of. -/
inductive Offer.Took : Offer → Receipt → List UInt8 → Prop
  | written {offer answer front} : Part (content offer) answer front →
    Took offer (.written answer) front
  | drained {region wellFormed answer n} : n ≤ region.remaining →
    Took (.drain region wellFormed) (.drained answer (region.skip n)) (region.window.list.take n)

end ByteFlow
