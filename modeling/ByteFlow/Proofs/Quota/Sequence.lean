import ByteFlow.Proofs.Codec.Grammar
import ByteFlow.Proofs.Lossless.Fill

/-!
# Everything that is asked of a stack

A sequence with its length in front is read and written by the single operations of a stream, and
so it is counted by every quota on the way, as far as it got.  A region that only gives bytes has
no use for the bytes of a source, and none is taken for it, provided that the stream at the foot of
the stack takes none.

## Main definitions

* `Query`, `Response` — what is asked of a source, and what it gives back.
* `Delivery` — what is offered to a sink.
* `Spelled units answer bs` — the bytes are those of the sequence, or no more than it announces.
* `Query.Gave`, `Delivery.Took` — the bytes that a response or a receipt tells of.
* `Source.Candid.ends_query`, `Sink.Candid.ends_deliver` — a stack with a quota in it tells them.
-/

namespace ByteFlow

open ByteFlow.Action

variable {P L σ α : Type}

/-! ## What is asked -/

/-- Everything that can be asked of a source. -/
inductive Query where
  | request (call : Request)
  /-- Code units with their number in front. -/
  | sequence
  | text
  /-- A fill of a region that only gives bytes. -/
  | sealed (region : Region) (wellFormed : region.WellFormed) (readOnly : region.readOnly = true)

/-- What a source gives back, also when it fails. -/
inductive Response where
  | reply (got : Reply)
  | sequence (answer : Except Fault (Array UInt16))
  | text (answer : Except Fault String)
  | sealed (answer : Except Fault Unit) (region : Region)

/-- Everything that can be offered to a sink. -/
inductive Delivery where
  | offer (call : Offer)
  /-- Code units with their number in front. -/
  | sequence (us : Array UInt16)
  | text (s : String)

/-- Put the query to a source. -/
def Query.perform [Source σ] : Query → Action σ Response
  | .request call => do
    let got ← call.perform
    pure (.reply got)
  | .sequence => do
    let answer ← attempt Source.readUtf16
    pure (.sequence answer)
  | .text => do
    let answer ← attempt Source.readString
    pure (.text answer)
  | .sealed region _ _ => do
    let (answer, region) ← alongside region (attempt Source.fill)
    pure (.sealed answer region)

/-- Make the delivery to a sink. -/
def Delivery.perform [Sink σ] : Delivery → Action σ Receipt
  | .offer call => call.perform
  | .sequence us => do
    let answer ← attempt (Sink.writeUtf16 us)
    pure (.written answer)
  | .text s => do
    let answer ← attempt (Sink.writeString s)
    pure (.written answer)

/-- What the query relies on at the foot of a stack. -/
def Query.Needs (L : Type) [Source L] [Meter L] : Query → Prop
  | .sealed .. => SparingSource L
  | _ => True

/-- The bytes of a sequence, or no more of them than it announces if the answer is a fault. -/
def Spelled (units : α → List UInt16) (answer : Except Fault α) (bs : List UInt8) : Prop :=
  match answer with
  | .ok a => (units a).length ≤ Sink.maxUnits ∧ bs = sequenceBytes (units a)
  | .error _ => bs.length ≤ 4 + 2 * (announced bs).toNat

/-- The bytes that the response to a query tells of. -/
inductive Query.Gave : Query → Response → List UInt8 → Prop
  | request {call got bs} : call.Gave got bs → Gave (.request call) (.reply got) bs
  | sequence {answer bs} : Spelled Array.toList answer bs → Gave .sequence (.sequence answer) bs
  | text {answer bs} : Spelled Text.Utf16.encode answer bs → Gave .text (.text answer) bs
  | sealed {region wellFormed readOnly answer} :
    Gave (.sealed region wellFormed readOnly) (.sealed answer region) []

/-- The bytes that the receipt for a delivery tells of. -/
inductive Delivery.Took : Delivery → Receipt → List UInt8 → Prop
  | offer {call receipt bs} : call.Took receipt bs → Took (.offer call) receipt bs
  | sequence {us answer front} : Part (sequenceBytes us.toList) answer front →
    Took (.sequence us) (.written answer) front
  | text {s answer front} : Part (sequenceBytes (Text.Utf16.encode s)) answer front →
    Took (.text s) (.written answer) front

/-! ## Sources -/

theorem length_sequenceBytes (us : List UInt16) :
    (sequenceBytes us).length = 4 + 2 * us.length := by
  rw [sequenceBytes, List.length_append, BigEndian.length_encode, length_unitBytes]

theorem announced_sequenceBytes {us : List UInt16} (h : us.length ≤ Sink.maxUnits) :
    announced (sequenceBytes us) = us.length := by
  have hlt : us.length < 256 ^ 4 := Nat.lt_of_le_of_lt h (by decide)
  rw [announced, sequenceBytes, List.take_left' (BigEndian.length_encode ..),
    BigEndian.decode_encode_of_lt hlt, toInt_length h]

/-- So many bytes were announced, and no more of them went through. -/
theorem spelled_error {units : α → List UInt16} {bs cs : List UInt8} (hbs : bs.length = 4)
    (hcs : cs.length ≤ 2 * (announced bs).toNat) (fault : Fault) :
    Spelled units (.error fault) (bs ++ cs) := by
  have hannounced : announced (bs ++ cs) = announced bs := by
    rw [announced, announced, List.take_left' hbs, List.take_of_length_le hbs.le]
  rw [Spelled, hannounced, List.length_append]
  omega

/-- All units came that were announced. -/
theorem spelled_ok {bs cs : List UInt8} {n : Nat} (hbs : bs.length = 4) (hn : announced bs = n)
    (hcs : cs.length = 2 * n) : Spelled Array.toList (.ok (unitsOf cs).toArray) (bs ++ cs) := by
  have hannounced : announced (bs ++ cs) = n := by
    rw [← hn, announced, announced, List.take_left' hbs, List.take_of_length_le hbs.le]
  have hlength : (bs ++ cs).length = 4 + 2 * n := by rw [List.length_append, hbs, hcs]
  have hfew := length_unitsOf_le hannounced hlength.ge
  have hall := sequenceBytes_unitsOf hannounced hlength.ge
  rw [List.drop_left' hbs, List.take_of_length_le hcs.le] at hfew hall
  rw [List.take_of_length_le hlength.le] at hall
  exact ⟨hfew, hall.symm⟩

section Sources

variable [Meter σ] {I : σ → Prop} {quotas : σ → List Nat} {s : σ}

/-- A stack with a quota in it still has one when bytes have gone through. -/
theorem Charges.quotas_ne_nil (hcharges : Charges I quotas) {t : σ} {bs : List UInt8} (hs : I s)
    (hmoved : Moved s bs t) (hquotas : quotas s ≠ []) : I t ∧ quotas t ≠ [] := by
  obtain ⟨ht, -, heq⟩ := hcharges hs hmoved
  refine ⟨ht, fun hnil => hquotas ?_⟩
  rw [heq, List.map_eq_nil_iff] at hnil
  exact hnil

theorem Gathered.refl (s : σ) (units : Array UInt16) (answer : Except Fault Unit) :
    Gathered s 0 units answer (s, units) :=
  ⟨[], Meter.refl s, by simp [unitsOf], Nat.zero_le _, fun _ => rfl⟩

/-- What was gathered first, and what was gathered after it. -/
theorem Gathered.append {t : σ} {bs : List UInt8} {k n : Nat} {units : Array UInt16}
    {answer : Except Fault Unit} {p : σ × Array UInt16} (hmoved : Moved s bs t)
    (hbs : bs.length = 2 * k) (hk : k ≤ n)
    (h : Gathered t (n - k) (units ++ (unitsOf bs).toArray) answer p) :
    Gathered s n units answer p := by
  obtain ⟨cs, hmoved', hunits, hle, hall⟩ := h
  refine ⟨bs ++ cs, Meter.trans hmoved hmoved', ?_, ?_, fun hok => ?_⟩
  · rw [hunits, unitsOf_append hbs]
    simp
  · rw [List.length_append]
    omega
  · have hrest := hall hok
    rw [List.length_append]
    omega

namespace Source.Candid

variable [Source σ] (h : Source.Candid I quotas) (hcharges : Charges I quotas)
include h hcharges

/-- The units of a sequence come in steps. -/
theorem ends_steps {total : Nat} (turns : Nat) (inHand : Array UInt16) (hs : I s)
    (hquotas : quotas s ≠ []) (hturns : total - inHand.size ≤ turns * unitStep) :
    (repeatUntil turns (readStep total) (pure ())).Ends (s, inHand)
      (Gathered s (total - inHand.size) inHand) := by
  induction turns generalizing s inHand with
  | zero =>
    obtain hnone : total - inHand.size = 0 := by omega
    rw [repeatUntil_zero, hnone]
    exact .refl s inHand _
  | succ turns ih =>
    rw [ends_repeatUntil_succ, readStep, ends_gets_bind]
    dsimp only
    by_cases hmore : inHand.size < total
    · rw [if_pos hmore, ends_bind]
      generalize hk : min (total - inHand.size) unitStep = k
      refine (h.readUnits k inHand hs hquotas).mono ?_
      rintro answer ⟨t, units⟩ ⟨bs, hmoved, hunits, hle, hall⟩
      obtain rfl : units = inHand ++ (unitsOf bs).toArray := hunits
      cases answer with
      | error fault => exact ⟨bs, hmoved, rfl, by omega, fun hok => by cases hok⟩
      | ok _ =>
        have hlength := hall rfl
        obtain ⟨ht, hquotas'⟩ := hcharges.quotas_ne_nil hs hmoved hquotas
        have hsize : (inHand ++ (unitsOf bs).toArray).size = inHand.size + k := by
          simp [length_unitsOf hlength]
        have hrest := ih (inHand ++ (unitsOf bs).toArray) ht hquotas' (by
          rw [hsize]
          rw [Nat.succ_mul] at hturns
          omega)
        rw [hsize, ← Nat.sub_sub] at hrest
        exact hrest.mono fun _ _ hends => hends.append hmoved hlength (by omega)
    · have hnone : total - inHand.size = 0 := by omega
      rw [if_neg hmore, hnone]
      exact .refl s inHand _

/-- A stack with a quota in it gives all units, or tells how far it came. -/
theorem ends_readUnitsInSteps (total : Nat) (hs : I s) (hquotas : quotas s ≠ []) :
    (readUnitsInSteps total : Action (σ × Array UInt16) Unit).Ends (s, #[])
      (Gathered s total #[]) := by
  have hturns : total - (#[] : Array UInt16).size ≤ (total / unitStep + 1) * unitStep := by
    have hlt := Nat.lt_div_mul_add (a := total) (show 0 < unitStep by decide)
    rw [Nat.add_mul]
    omega
  exact h.ends_steps hcharges _ #[] hs hquotas hturns

theorem gives_readI32 : Gives I (readI32 : Action σ Int32) 4 fun bs =>
    (BigEndian.decode bs).toUInt32.toInt32 := by
  change Gives I (Scalar.i32.read : Action σ Int32) 4 Scalar.i32.decode
  rw [Scalar.i32.read_eq]
  exact (h.readU8.take (fun hs hmoved => (hcharges hs hmoved).1) 4).map _

/-- A sequence crosses a stack with a quota in it, as far as it gets. -/
theorem ends_readUtf16 (hs : I s) (hquotas : quotas s ≠ []) :
    (readUtf16 : Action σ (Array UInt16)).Ends s fun answer t =>
      ∃ bs, Moved s bs t ∧ Spelled Array.toList answer bs := by
  rw [readUtf16, ends_bind]
  refine (h.gives_readI32 hcharges s hs).mono ?_
  rintro answer t ⟨bs, hmoved, htold⟩
  cases answer with
  | error fault =>
    have hshort : bs.length < 4 := htold
    exact ⟨bs, hmoved, by rw [Spelled]; omega⟩
  | ok length =>
    obtain ⟨hbs, rfl⟩ := htold
    have hannounced : (BigEndian.decode bs).toUInt32.toInt32.toInt = announced bs := by
      rw [announced, List.take_of_length_le hbs.le]
    dsimp only
    generalize (BigEndian.decode bs).toUInt32.toInt32 = length at hannounced ⊢
    by_cases hnegative : length < 0
    · have hshort : bs.length ≤ 4 + 2 * (announced bs).toNat := by omega
      rw [if_pos hnegative]
      exact ⟨bs, hmoved, hshort⟩
    · obtain ⟨ht, hquotas'⟩ := hcharges.quotas_ne_nil hs hmoved hquotas
      rw [if_neg hnegative, hannounced]
      simp only [bind_pure_comp, ends_map, ends_alongside]
      refine (h.ends_readUnitsInSteps hcharges _ ht hquotas').mono ?_
      rintro answer ⟨u, units⟩ ⟨cs, hmoved', hunits, hle, hall⟩
      refine ⟨bs ++ cs, Meter.trans hmoved hmoved', ?_⟩
      cases answer with
      | error fault => exact spelled_error hbs hle fault
      | ok _ =>
        obtain rfl : units = (unitsOf cs).toArray := by simpa using hunits
        have hpositive : 0 ≤ announced bs := by
          rw [← hannounced]
          rw [Int32.lt_iff_toInt_lt] at hnegative
          exact Int.not_lt.1 hnegative
        exact spelled_ok hbs (Int.toNat_of_nonneg hpositive).symm (hall rfl)

/-- So does a string; when its units are refused, they have crossed. -/
theorem ends_readString (hs : I s) (hquotas : quotas s ≠ []) :
    (readString : Action σ String).Ends s fun answer t =>
      ∃ bs, Moved s bs t ∧ Spelled Text.Utf16.encode answer bs := by
  rw [readString, ends_bind]
  refine (h.ends_readUtf16 hcharges hs hquotas).mono ?_
  rintro answer t ⟨bs, hmoved, hspelled⟩
  cases answer with
  | error fault => exact ⟨bs, hmoved, hspelled⟩
  | ok units =>
    obtain ⟨hfew, rfl⟩ := hspelled
    cases htext : Text.Utf16.decode units.toList with
    | none =>
      simp only [htext]
      refine ⟨_, hmoved, ?_⟩
      change (sequenceBytes units.toList).length ≤
        4 + 2 * (announced (sequenceBytes units.toList)).toNat
      rw [announced_sequenceBytes hfew, length_sequenceBytes, Int.toNat_natCast]
    | some text =>
      simp only [htext]
      have hunits : Text.Utf16.encode text = units.toList := Text.Utf16.encode_of_decode htext
      exact ⟨_, hmoved, by rw [hunits]; exact hfew, by rw [hunits]⟩

/-- A stack with a quota in it tells what went through, whatever it is asked. -/
theorem ends_query (query : Query)
    (hspares : ∀ r hr hreadOnly, query = .sealed r hr hreadOnly →
      (Source.fill : Action (σ × Region) Unit).Ends (s, r) fun _ p => Moved s [] p.1 ∧ p.2 = r)
    (hs : I s) (hquotas : quotas s ≠ []) :
    query.perform.Ends s fun answer t =>
      ∃ response bs, answer = .ok response ∧ query.Gave response bs ∧ Moved s bs t := by
  cases query with
  | request call =>
    simp only [Query.perform, bind_pure_comp, ends_map]
    refine (h.ends_perform hcharges hs hquotas call).mono ?_
    rintro answer t ⟨got, bs, rfl, hgave, hmoved⟩
    exact ⟨_, bs, rfl, .request hgave, hmoved⟩
  | sequence =>
    rw [Query.perform, ends_attempt_bind]
    refine (h.ends_readUtf16 hcharges hs hquotas).mono ?_
    rintro answer t ⟨bs, hmoved, hspelled⟩
    exact ⟨_, bs, rfl, .sequence hspelled, hmoved⟩
  | text =>
    rw [Query.perform, ends_attempt_bind]
    refine (h.ends_readString hcharges hs hquotas).mono ?_
    rintro answer t ⟨bs, hmoved, hspelled⟩
    exact ⟨_, bs, rfl, .text hspelled, hmoved⟩
  | sealed region wellFormed readOnly =>
    simp only [Query.perform, bind_pure_comp, ends_map, ends_alongside, ends_attempt]
    refine (hspares region wellFormed readOnly rfl).mono ?_
    rintro answer ⟨t, q⟩ ⟨hmoved, rfl⟩
    exact ⟨_, [], rfl, .sealed, hmoved⟩

end Source.Candid

end Sources

/-- A stack takes nothing for a region that only gives bytes if its foot does not. -/
theorem Tree.ends_fill_spared [Source L] [Meter L] [SparingSource L] [SourcePolicy P]
    {foot : L → Prop} {n : Nat} {t : Tree P L n} (ht : t.StandsOn foot) {r : Region}
    (hr : r.WellFormed) (hreadOnly : r.readOnly = true) :
    (Source.fill : Action (Tree P L n × Region) Unit).Ends (t, r) fun _ p =>
      Moved t [] p.1 ∧ p.2 = r := by
  induction n generalizing r with
  | zero => exact Empty.elim t
  | succ n ih =>
    cases t with
    | endpoint s => exact SparingSource.fill s r hr hreadOnly
    | quota q => exact Quota.ends_clipped_spared hr (ih (t := q.inner) ht (hr.narrowed _) hreadOnly)
    | closing c =>
      have hinner := ih (t := c.inner) ht hr hreadOnly
      exact Closing.ends_whenOpenWith_of (Q := fun _ p => Moved c [] p.1 ∧ p.2 = r)
        ⟨Meter.refl c, rfl⟩ hinner
    | chain c => exact ht.elim
    | traced t => exact ih (t := t.inner) ht hr hreadOnly
    | relay t => exact ih (t := t.inner) ht hr hreadOnly

/-! ## Sinks -/

namespace Sink.Candid

variable [Meter σ] [Sink σ] {I : σ → Prop} {quotas : σ → List Nat} {s : σ}
  (h : Sink.Candid I quotas) (hcharges : Charges I quotas)
include h hcharges

/-- A sequence crosses a stack with a quota in it, as far as it gets. -/
theorem ends_writeUtf16 (us : Array UInt16) (hs : I s) (hquotas : quotas s ≠ []) :
    (writeUtf16 us : Action σ Unit).Ends s fun answer t =>
      ∃ front, Moved s front t ∧ Part (sequenceBytes us.toList) answer front := by
  rw [writeUtf16]
  by_cases hlong : maxUnits < us.size
  · rw [if_pos hlong]
    exact ⟨[], Meter.refl s, part_error ..⟩
  have hlength : HandsOn I (writeNat 4 us.size : Action σ Unit) (BigEndian.encode 4 us.size) :=
    h.writeU8.writeList (fun hs hmoved => (hcharges hs hmoved).1) _
  rw [if_neg hlong, ends_bind]
  refine (hlength s hs).mono ?_
  rintro answer t ⟨front, hmoved, hprefix, hall⟩
  cases answer with
  | error fault =>
    exact ⟨front, hmoved, hprefix.trans (List.prefix_append ..), fun hok => by cases hok⟩
  | ok _ =>
    obtain rfl := hall rfl
    obtain ⟨ht, hquotas'⟩ := hcharges.quotas_ne_nil hs hmoved hquotas
    refine (h.writeUnits us ht hquotas').mono ?_
    rintro answer u ⟨more, hmoved', hprefix, hall⟩
    refine ⟨_, Meter.trans hmoved hmoved', (List.prefix_append_right_inj _).2 hprefix, ?_⟩
    intro hok
    rw [hall hok]
    rfl

/-- A stack with a quota in it tells what went through, whatever is delivered to it. -/
theorem ends_deliver (hs : I s) (hquotas : quotas s ≠ []) (delivery : Delivery) :
    delivery.perform.Ends s fun answer t =>
      ∃ receipt bs, answer = .ok receipt ∧ delivery.Took receipt bs ∧ Moved s bs t := by
  cases delivery with
  | offer call =>
    refine (h.ends_perform hcharges hs hquotas call).mono ?_
    rintro answer t ⟨receipt, bs, rfl, htook, hmoved⟩
    exact ⟨receipt, bs, rfl, .offer htook, hmoved⟩
  | sequence us =>
    rw [Delivery.perform, ends_attempt_bind]
    refine (h.ends_writeUtf16 hcharges us hs hquotas).mono ?_
    rintro answer t ⟨front, hmoved, hpart⟩
    exact ⟨_, front, rfl, .sequence hpart, hmoved⟩
  | text s =>
    rw [Delivery.perform, ends_attempt_bind]
    refine (h.ends_writeUtf16 hcharges (Text.Utf16.encode s).toArray hs hquotas).mono ?_
    rintro answer t ⟨front, hmoved, hpart⟩
    exact ⟨_, front, rfl, .text hpart, hmoved⟩

end Sink.Candid

end ByteFlow
