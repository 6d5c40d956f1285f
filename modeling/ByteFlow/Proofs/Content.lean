import ByteFlow.Proofs.Memory
import ByteFlow.Proofs.Openness
import ByteFlow.Source.Codec

/-!
# The content of a source

An open source denotes a list of bytes, and that list is all there is to know about it:
an operation that asks for `n` bytes takes the first `n` of them, and reports the end of
the stream exactly when there are fewer.  Every layer computes its content from the
contents of the streams under it, and keeps this law.

## Main definitions

* `content s` — the bytes that the source `s` is going to give.
* `Reads x n f` — the operation `x` asks for `n` bytes and answers what `f` makes of them.
* `Gathers x a n add` — the same for an operation that adds the bytes to a companion.
* `LawfulSource` — sources whose operations read their content.
* `LawfulSupply` — sources that give no more than their supply.
-/

namespace ByteFlow

open ByteFlow.Action

/-- The bytes that a source is going to give. -/
class Content (σ : Type) where
  content : σ → List UInt8

export Content (content)

variable {P L σ τ ρ α β : Type}

/-! ## Requests -/

/-- The answer to a request for `n` bytes when `bs` is all there is. -/
def delivered (n : Nat) (bs : List UInt8) (a : α) : Except Fault α :=
  if n ≤ bs.length then .ok a else .error .endOfStream

theorem delivered_of_le {n : Nat} {bs : List UInt8} (h : n ≤ bs.length) (a : α) :
    delivered n bs a = .ok a :=
  if_pos h

theorem delivered_of_lt {n : Nat} {bs : List UInt8} (h : bs.length < n) (a : α) :
    delivered n bs a = .error .endOfStream :=
  if_neg (Nat.not_le.2 h)

@[simp] theorem delivered_map (n : Nat) (bs : List UInt8) (f : α → β) (a : α) :
    (delivered n bs a).map f = delivered n bs (f a) := by
  rw [delivered, delivered]
  split <;> rfl

theorem Bytewise.take_succ (next : Action σ UInt8) (n : Nat) :
    take next (n + 1) = (do let b ← next; (b :: ·) <$> take next n) := by
  simp only [take, bind_pure_comp]

section Requests

variable [Openness σ] [Content σ]

/-- From `s` to `t` the first `n` bytes were read. -/
def Advanced (s : σ) (n : Nat) (t : σ) : Prop := IsOpen t ∧ content t = (content s).drop n

theorem Advanced.trans {s t u : σ} {m n : Nat} (hst : Advanced s m t) (htu : Advanced t n u) :
    Advanced s (m + n) u := by
  refine ⟨htu.1, ?_⟩
  rw [htu.2, hst.2, List.drop_drop]

/-- Where there are not even `m` bytes it makes no difference to ask for more. -/
theorem Advanced.of_length_le {s t : σ} {m n : Nat} (h : Advanced s m t)
    (hm : (content s).length ≤ m) (hn : m ≤ n) : Advanced s n t := by
  refine ⟨h.1, ?_⟩
  rw [h.2, List.drop_of_length_le hm, List.drop_of_length_le (by omega)]

/-- The operation takes `n` bytes and answers what `f` makes of them. -/
def Reads (x : Action σ α) (n : Nat) (f : List UInt8 → α) : Prop :=
  ∀ s, IsOpen s → x.Ends s fun answer t =>
    answer = delivered n (content s) (f ((content s).take n)) ∧ Advanced s n t

/-- The operation takes `n` bytes and makes its companion out of them. -/
def Gathers (x : Action (σ × ρ) Unit) (a : ρ) (n : Nat) (add : List UInt8 → ρ) : Prop :=
  ∀ s, IsOpen s → x.Ends (s, a) fun answer p =>
    answer = delivered n (content s) () ∧ Advanced s n p.1 ∧ p.2 = add ((content s).take n)

namespace Reads

variable {x : Action σ α} {m n : Nat} {f : List UInt8 → α}

protected theorem pure (a : α) : Reads (pure a : Action σ α) 0 fun _ => a := by
  intro s hs
  exact ⟨rfl, hs, rfl⟩

/-- Only lists of the length that was asked for matter. -/
theorem congr {g : List UInt8 → α} (h : Reads x n f)
    (hfg : ∀ bs : List UInt8, bs.length = n → f bs = g bs) : Reads x n g := by
  intro s hs
  refine (h s hs).of_answer ?_
  intro t ht
  refine ⟨?_, ht⟩
  by_cases hn : n ≤ (content s).length
  · rw [delivered_of_le hn, delivered_of_le hn, hfg _ (List.length_take_of_le hn)]
  · rw [delivered_of_lt (by omega), delivered_of_lt (by omega)]

theorem map (g : α → β) (h : Reads x n f) : Reads (g <$> x) n fun bs => g (f bs) := by
  intro s hs
  rw [ends_map]
  refine (h s hs).of_answer ?_
  intro t ht
  exact ⟨delivered_map .., ht⟩

/-- Two requests in a row are one for the bytes of both. -/
protected theorem bind {g : α → Action σ β} {h : α → List UInt8 → β} (hx : Reads x m f)
    (hg : ∀ a, Reads (g a) n (h a)) :
    Reads (x >>= g) (m + n) fun bs => h (f (bs.take m)) (bs.drop m) := by
  intro s hs
  rw [ends_bind]
  refine (hx s hs).of_answer ?_
  intro t ht
  by_cases hm : m ≤ (content s).length
  · rw [delivered_of_le hm]
    refine (hg _ t ht.1).of_answer ?_
    intro u hu
    refine ⟨?_, ht.trans hu⟩
    simp only [ht.2, List.take_take, List.drop_take, Nat.add_sub_cancel_left,
      Nat.min_eq_left (Nat.le_add_right m n)]
    by_cases hn : m + n ≤ (content s).length
    · rw [delivered_of_le hn, delivered_of_le (by rw [List.length_drop]; omega)]
    · rw [delivered_of_lt (by rw [List.length_drop]; omega), delivered_of_lt (by omega)]
  · rw [delivered_of_lt (by omega), delivered_of_lt (by omega)]
    exact ⟨rfl, ht.of_length_le (by omega) (by omega)⟩

/-- Bytes that are read one after the other are read in order. -/
theorem take {next : Action σ UInt8} (h : Reads next 1 fun bs => bs.headD 0) (n : Nat) :
    Reads (Bytewise.take next n) n fun bs => bs := by
  induction n with
  | zero =>
    refine (Reads.pure []).congr ?_
    intro bs hbs
    exact (List.length_eq_zero_iff.1 hbs).symm
  | succ n ih =>
    rw [Bytewise.take_succ, Nat.add_comm]
    refine (h.bind fun b => ih.map (b :: ·)).congr ?_
    intro bs hbs
    cases bs with
    | nil =>
      rw [List.length_nil] at hbs
      omega
    | cons b bs => simp

theorem readUnit {next : Action σ UInt8} (h : Reads next 1 fun bs => bs.headD 0) :
    Reads (Bytewise.readUnit next) 2 fun bs => (BigEndian.decode bs).toUInt16 := by
  rw [Bytewise.readUnit, bind_pure_comp]
  exact (take h 2).map _

end Reads

/-! ## Bulk requests -/

/-- The code units in a list of bytes; a byte without a second one is not one. -/
def unitsOf : List UInt8 → List UInt16
  | high :: low :: rest => (BigEndian.decode [high, low]).toUInt16 :: unitsOf rest
  | _ => []

theorem unitsOf_of_length_lt {bs : List UInt8} (h : bs.length < 2) : unitsOf bs = [] := by
  match bs, h with
  | [], _ => rfl
  | [_], _ => rfl

theorem unitsOf_eq_cons {bs : List UInt8} (h : 2 ≤ bs.length) :
    unitsOf bs = (BigEndian.decode (bs.take 2)).toUInt16 :: unitsOf (bs.drop 2) := by
  match bs, h with
  | _ :: _ :: _, _ => rfl

omit [Openness σ] [Content σ] in
theorem Bytewise.ends_readUnits_succ (next : Action σ UInt8) (n : Nat) (s : σ)
    (units : Array UInt16) (Q : Except Fault Unit → σ × Array UInt16 → Prop) :
    (readUnits next (n + 1)).Ends (s, units) Q ↔
      (readUnit next).Ends s fun answer t =>
        match answer with
        | .ok unit => (readUnits next n).Ends (t, units.push unit) Q
        | .error fault => Q (.error fault) (t, units) := by
  rw [readUnits, ends_repeatUntil_succ, ends_bind, ends_onFirst]
  refine ends_congr fun answer t => ?_
  cases answer <;> rfl

/-- Code units that are read one after the other; a last byte on its own is lost. -/
theorem Reads.readUnits {next : Action σ UInt8} (h : Reads next 1 fun bs => bs.headD 0) (n : Nat)
    (units : Array UInt16) :
    Gathers (Bytewise.readUnits next n) units (2 * n) fun bs => units ++ (unitsOf bs).toArray := by
  intro s hs
  induction n generalizing s units with
  | zero =>
    rw [Bytewise.readUnits, repeatUntil_zero]
    refine ⟨rfl, ⟨hs, rfl⟩, ?_⟩
    simp [unitsOf]
  | succ n ih =>
    rw [Bytewise.ends_readUnits_succ]
    refine (h.readUnit s hs).of_answer ?_
    intro t ht
    by_cases htwo : 2 ≤ (content s).length
    · rw [delivered_of_le htwo]
      refine (ih _ t ht.1).of_answer ?_
      intro final hends
      obtain ⟨u, more⟩ := final
      obtain ⟨hu, rfl⟩ := hends
      have hlen : (content t).length = (content s).length - 2 := by rw [ht.2, List.length_drop]
      refine ⟨?_, ?_, ?_⟩
      · simp only [delivered, hlen]
        congr 1
        exact propext (by omega)
      · rw [show 2 * (n + 1) = 2 + 2 * n by omega]
        exact ht.trans hu
      · have hunits : unitsOf ((content s).take (2 * (n + 1))) =
            (BigEndian.decode ((content s).take 2)).toUInt16 ::
              unitsOf ((content t).take (2 * n)) := by
          rw [unitsOf_eq_cons (by rw [List.length_take]; omega), List.take_take, List.drop_take,
            ht.2, Nat.min_eq_left (by omega), show 2 * (n + 1) - 2 = 2 * n by omega]
        simp [hunits]
    · rw [delivered_of_lt (by omega)]
      refine ⟨?_, ht.of_length_le (by omega) (by omega), ?_⟩
      · rw [delivered_of_lt (by omega)]
      · have hnone : unitsOf ((content s).take (2 * (n + 1))) = [] :=
          unitsOf_of_length_lt (by rw [List.length_take]; omega)
        simp [hnone]

/-- A fill puts the first bytes of the content into the window, as many as fit. -/
def Fills (fill : Action (σ × Region) Unit) : Prop :=
  ∀ (s : σ) (r : Region), IsOpen s → r.Writable → fill.Ends (s, r) fun answer p =>
    answer = .ok () ∧ Advanced s r.remaining p.1 ∧
      p.2 = r.receive ((content s).take r.remaining)

/-- A bulk read that is a fill delivers the whole window or comes short. -/
theorem Fills.fillCompletely {fill : Action (σ × Region) Unit} (h : Fills fill) {r : Region}
    (hr : r.Writable) : Gathers (Source.fillCompletely fill) r r.remaining r.receive := by
  intro s hs
  rw [Source.ends_fillCompletely]
  refine (h s r hs hr).of_answer ?_
  intro final hends
  obtain ⟨t, q⟩ := final
  obtain ⟨ht, rfl⟩ := hends
  refine ⟨?_, ht, rfl⟩
  simp only [Except.bind, Region.remaining_receive, List.length_take, delivered]
  congr 1
  exact propext (by omega)

end Requests

/-! ## Sources that read their content -/

/-- Every operation of the source reads its content. -/
class LawfulSource (σ : Type) [Source σ] [Openness σ] [Content σ] : Prop
    extends LawfulClose σ where
  readU8 : Reads (Source.readU8 : Action σ UInt8) 1 fun bs => bs.headD 0
  fill : Fills (Source.fill : Action (σ × Region) Unit)
  readBytes : ∀ {r : Region}, r.Writable →
    Gathers (Source.readBytes : Action (σ × Region) Unit) r r.remaining r.receive
  readUnits : ∀ (n : Nat) (units : Array UInt16),
    Gathers (Source.readUnits n : Action (σ × Array UInt16) Unit) units (2 * n) fun bs =>
      units ++ (unitsOf bs).toArray

/-! ### Memory -/

instance : Content Empty where
  content := nofun

instance : LawfulSource Empty where
  ends_close := nofun
  readU8 := nofun
  fill := nofun
  readBytes _ := nofun
  readUnits _ _ := nofun

namespace MemorySource

instance : Content MemorySource where
  content s := s.data.list.drop s.position

theorem reads_next : Reads next 1 fun bs => bs.headD 0 := by
  intro s hs
  have hcontent : content s = s.data.list.drop s.position := rfl
  rw [ends_next hs]
  cases hdrop : s.data.list.drop s.position with
  | nil =>
    rw [hcontent, hdrop]
    exact ⟨rfl, hs, by rw [hcontent, hdrop]; rfl⟩
  | cons b bs =>
    rw [hcontent, hdrop]
    refine ⟨rfl, hs, ?_⟩
    change s.data.list.drop (s.position + 1) = (s.data.list.drop s.position).drop 1
    rw [List.drop_drop]

theorem fills_copyInto : Fills copyInto := by
  intro s r hs hr
  rw [ends_copyInto hs hr.readOnly_eq]
  exact ⟨rfl, ⟨hs, drop_copied s r.remaining⟩, rfl⟩

instance : LawfulSource MemorySource where
  ends_close _ := ⟨rfl, trivial⟩
  readU8 := reads_next
  fill := fills_copyInto
  readBytes := fills_copyInto.fillCompletely
  readUnits := reads_next.readUnits

end MemorySource

section Layers

variable [Source σ] [Openness σ] [Content σ] [LawfulSource σ]

/-! ### Quotas -/

namespace Quota

instance : Content (Quota σ) where
  content q := (content q.inner).take q.remaining

omit [Source σ] [LawfulSource σ] in
theorem reads_counted {x : Action σ α} {f : List UInt8 → α} (hx : Reads x 1 f) :
    Reads (counted x) 1 f := by
  intro final hs
  obtain ⟨s, remaining⟩ := final
  rw [ends_counted]
  cases remaining with
  | zero =>
    rw [if_pos rfl]
    exact ⟨rfl, hs, rfl⟩
  | succ n =>
    rw [if_neg (Nat.succ_ne_zero n)]
    refine (hx s hs).of_answer ?_
    intro t hends
    obtain ⟨ht, hcontent⟩ := hends
    cases hs' : content s with
    | nil =>
      have hq : content (⟨s, n + 1⟩ : Quota σ) = [] := by simp [content, hs']
      have ht' : content (⟨t, n + 1⟩ : Quota σ) = [] := by simp [content, hcontent, hs']
      rw [hq]
      exact ⟨rfl, ht, by rw [hq, ht']; rfl⟩
    | cons b bs =>
      have hq : content (⟨s, n + 1⟩ : Quota σ) = b :: bs.take n := by simp [content, hs']
      have ht' : content (⟨t, n⟩ : Quota σ) = bs.take n := by simp [content, hcontent, hs']
      rw [hq]
      exact ⟨rfl, ht, by rw [hq]; exact ht'⟩

/-- What a narrowed request leaves of the bytes within the quota. -/
theorem take_drop_min (bs : List UInt8) (n room : Nat) :
    (bs.drop (min room n)).take (n - (bs.take (min room n)).length) = (bs.take n).drop room := by
  rw [List.drop_take, List.length_take]
  by_cases hlen : bs.length ≤ min room n
  · rw [List.drop_of_length_le hlen, List.drop_of_length_le (by omega), List.take_nil,
      List.take_nil]
  · by_cases hroom : room ≤ n
    · rw [Nat.min_eq_left hroom, Nat.min_eq_left (by omega)]
    · have hle : n ≤ room := by omega
      rw [Nat.min_eq_right hle, Nat.min_eq_left (by omega), Nat.sub_self,
        Nat.sub_eq_zero_of_le hle, List.take_zero, List.take_zero]

omit [Source σ] [LawfulSource σ] in
theorem fills_clipped {fill : Action (σ × Region) Unit} (hfill : Fills fill) :
    Fills (clipped fill) := by
  intro final r hs hr
  obtain ⟨s, n⟩ := final
  rw [ends_clipped]
  by_cases hn : n = 0
  · subst hn
    rw [if_pos rfl]
    refine ⟨rfl, ⟨hs, ?_⟩, ?_⟩ <;> simp [content]
  · rw [if_neg hn]
    refine (hfill s (r.narrowed n) hs (hr.narrowed n)).of_answer ?_
    intro final hends
    obtain ⟨t, q⟩ := final
    obtain ⟨⟨ht, hcontent⟩, rfl⟩ := hends
    rw [Region.remaining_narrowed hr.toWellFormed] at hcontent ⊢
    refine ⟨rfl, ⟨ht, ?_⟩, ?_⟩
    · rw [Region.position_receive, Region.position_narrowed hr.toWellFormed,
        Nat.add_sub_cancel_left]
      change (content t).take _ = _
      rw [hcontent]
      exact take_drop_min ..
    · rw [Region.setLimit_receive_narrowed hr.toWellFormed (by rw [List.length_take]; omega)]
      change _ = r.receive (((content s).take n).take r.remaining)
      rw [List.take_take]

instance : LawfulSource (Quota σ) where
  ends_close h := LawfulClose.ends_close (σ := σ) h
  readU8 := reads_counted LawfulSource.readU8
  fill := fills_clipped LawfulSource.fill
  readBytes := (fills_clipped LawfulSource.fill).fillCompletely
  readUnits := (reads_counted LawfulSource.readU8).readUnits

end Quota

/-! ### Wrappers that hand operations on -/

instance : Content (Traced σ) where
  content t := content t.inner

instance : Content (Relay σ) where
  content t := content t.inner

instance : LawfulSource (Traced σ) where
  ends_close h := LawfulClose.ends_close (σ := σ) h
  readU8 t := LawfulSource.readU8 t.inner
  fill t := LawfulSource.fill t.inner
  readBytes hr t := LawfulSource.readBytes hr t.inner
  readUnits n units t := LawfulSource.readUnits n units t.inner

instance : LawfulSource (Relay σ) where
  ends_close h := LawfulClose.ends_close (σ := σ) h
  readU8 t := LawfulSource.readU8 t.inner
  fill t := LawfulSource.fill t.inner
  readBytes hr t := LawfulSource.readBytes hr t.inner
  readUnits n units t := LawfulSource.readUnits n units t.inner

namespace Closing

instance : Content (Closing P σ) where
  content c := content c.inner

omit [Source σ] [LawfulSource σ]

theorem reads_whenOpen {x : Action σ α} {n : Nat} {f : List UInt8 → α} (hx : Reads x n f) :
    Reads (whenOpen x : Action (Closing P σ) α) n f := by
  intro c hc
  rw [ends_whenOpen hc.1]
  refine (hx c.inner hc.2).mono ?_
  intro answer s hends
  obtain ⟨hanswer, hs, hcontent⟩ := hends
  exact ⟨hanswer, ⟨hc.1, hs⟩, hcontent⟩

theorem gathers_whenOpenWith {x : Action (σ × ρ) Unit} {a : ρ} {n : Nat} {add : List UInt8 → ρ}
    (hx : Gathers x a n add) :
    Gathers (whenOpenWith x : Action (Closing P σ × ρ) Unit) a n add := by
  intro c hc
  rw [ends_whenOpenWith hc.1]
  refine (hx c.inner hc.2).mono ?_
  intro answer final hends
  obtain ⟨s, b⟩ := final
  obtain ⟨hanswer, ⟨hs, hcontent⟩, hb⟩ := hends
  exact ⟨hanswer, ⟨⟨hc.1, hs⟩, hcontent⟩, hb⟩

theorem fills_whenOpenWith {fill : Action (σ × Region) Unit} (hfill : Fills fill) :
    Fills (whenOpenWith fill : Action (Closing P σ × Region) Unit) := by
  intro c r hc hr
  rw [ends_whenOpenWith hc.1]
  refine (hfill c.inner r hc.2 hr).mono ?_
  intro answer final hends
  obtain ⟨s, q⟩ := final
  obtain ⟨hanswer, ⟨hs, hcontent⟩, hq⟩ := hends
  exact ⟨hanswer, ⟨⟨hc.1, hs⟩, hcontent⟩, hq⟩

variable [ClosePolicy P σ] [Harmless P σ]

instance : LawfulSource (Closing P σ) where
  ends_close := ends_shut_of_closable
  readU8 := reads_whenOpen LawfulSource.readU8
  fill := fills_whenOpenWith LawfulSource.fill
  readBytes hr := gathers_whenOpenWith (LawfulSource.readBytes hr)
  readUnits n units := gathers_whenOpenWith (LawfulSource.readUnits n units)

end Closing

/-! ### Chains -/

namespace Chain

instance : Content (Chain P σ) where
  content c := c.ahead.flatMap content

omit [Source σ] [LawfulSource σ]

omit [Openness σ] in
/-- A chain without its active member has the same content when that member had none. -/
theorem content_of_ahead_eq {c : Chain P σ} {left rest : List σ} {m : σ} {policy : P}
    {closed : Bool} (hc : c.ahead = rest) (hm : content m = []) :
    content (⟨left, m :: rest, policy, closed⟩ : Chain P σ) = content c := by
  change (m :: rest).flatMap content = c.ahead.flatMap content
  rw [List.flatMap_cons, hm, hc, List.nil_append]

variable [ClosePolicy P σ] [Harmless P σ] {settle : Action σ Unit}

/-- The first byte of the first member that has one is the first byte of the chain. -/
theorem reads_pull (hsettle : Settles settle) {x : Action σ α} {f : List UInt8 → α}
    (hx : Reads x 1 f) : Reads (pull settle x : Action (Chain P σ) α) 1 f := by
  intro c hc
  generalize hahead : c.ahead = ahead
  induction ahead generalizing c with
  | nil =>
    rcases c with ⟨left, ahead, policy, closed⟩
    obtain rfl : ahead = [] := hahead
    rw [ends_pull_nil]
    exact ⟨rfl, hc, rfl⟩
  | cons m rest ih =>
    rcases c with ⟨left, ahead, policy, closed⟩
    obtain rfl : ahead = m :: rest := hahead
    have hrest : ∀ k ∈ rest, IsOpen k := fun k hk => hc.2 k (List.mem_cons_of_mem _ hk)
    rw [ends_pull_cons]
    refine (hx m (hc.2 m List.mem_cons_self)).of_answer ?_
    intro t hends
    obtain ⟨ht, hcontent⟩ := hends
    have hopen : IsOpen (⟨left, t :: rest, policy, closed⟩ : Chain P σ) :=
      ⟨hc.1, List.forall_mem_cons.2 ⟨ht, hrest⟩⟩
    cases hm : content m with
    | nil =>
      -- an exhausted member is left, and the chain without it answers
      refine ⟨fun h => absurd rfl h, fun _ => ?_⟩
      refine (ends_leave_of_isOpen hsettle hopen rfl).of_answer ?_
      intro c hends
      obtain ⟨hmoved, hc⟩ := hends
      rw [content_of_ahead_eq hc hm]
      refine (ih c hmoved hc).of_answer ?_
      intro d hends
      obtain ⟨hd, hcd⟩ := hends
      exact ⟨rfl, hd, by rw [hcd, content_of_ahead_eq hc hm]⟩
    | cons b bs =>
      have hcons : content (⟨left, m :: rest, policy, closed⟩ : Chain P σ) =
          b :: (bs ++ rest.flatMap content) := by
        simp [content, hm]
      rw [hcons]
      refine ⟨fun _ => ⟨rfl, hopen, ?_⟩, nofun⟩
      rw [hcons]
      change content t ++ rest.flatMap content = _
      rw [hcontent, hm]
      rfl

/-- A fill goes on with the next member where the active one comes short. -/
theorem fills_spread (hsettle : Settles settle) {fill : Action (σ × Region) Unit}
    (hfill : Fills fill) : Fills (spread settle fill : Action (Chain P σ × Region) Unit) := by
  intro c r hc hr
  generalize hahead : c.ahead = ahead
  induction ahead generalizing c r with
  | nil =>
    rcases c with ⟨left, ahead, policy, closed⟩
    obtain rfl : ahead = [] := hahead
    rw [ends_spread_nil]
    refine ⟨rfl, ⟨hc, ?_⟩, ?_⟩ <;> simp [content]
  | cons m rest ih =>
    rcases c with ⟨left, ahead, policy, closed⟩
    obtain rfl : ahead = m :: rest := hahead
    have hrest : ∀ k ∈ rest, IsOpen k := fun k hk => hc.2 k (List.mem_cons_of_mem _ hk)
    have hcons : content (⟨left, m :: rest, policy, closed⟩ : Chain P σ) =
        content m ++ rest.flatMap content := rfl
    rw [ends_spread_cons, hcons]
    by_cases hroom : r.remaining = 0
    · rw [if_pos hroom, hroom, List.take_zero, Region.receive_nil]
      exact ⟨rfl, ⟨hc, rfl⟩, rfl⟩
    rw [if_neg hroom]
    refine (hfill m r (hc.2 m List.mem_cons_self) hr).of_answer ?_
    intro final hends
    obtain ⟨t, q⟩ := final
    obtain ⟨⟨ht, hcontent⟩, rfl⟩ := hends
    have hopen : IsOpen (⟨left, t :: rest, policy, closed⟩ : Chain P σ) :=
      ⟨hc.1, List.forall_mem_cons.2 ⟨ht, hrest⟩⟩
    simp only [Region.remaining_receive, List.length_take]
    by_cases hfull : r.remaining - min r.remaining (content m).length = 0
    · -- the active member had enough for the whole window
      rw [if_pos hfull, List.take_append_of_le_length (by omega)]
      refine ⟨trivial, ⟨hopen, ?_⟩, rfl⟩
      rw [hcons, List.drop_append_of_le_length (by omega), ← hcontent]
      rfl
    · -- the others fill what is left of it
      rw [if_neg hfull]
      refine (ends_leave_of_isOpen hsettle hopen rfl).of_answer ?_
      intro c hends
      obtain ⟨hmoved, hc⟩ := hends
      have hshort : (content m).length ≤ r.remaining := by omega
      have hc' : content c = rest.flatMap content := by rw [← hc]; rfl
      rw [List.take_of_length_le hshort]
      refine (ih c (r.receive (content m)) hmoved (hr.receive hshort) hc).of_answer ?_
      intro final hends
      obtain ⟨d, q⟩ := final
      obtain ⟨⟨hd, hcd⟩, rfl⟩ := hends
      rw [Region.remaining_receive, hc'] at hcd ⊢
      refine ⟨rfl, ⟨hd, ?_⟩, ?_⟩
      · rw [hcons, hcd, List.drop_append, List.drop_of_length_le hshort, List.nil_append]
      · rw [Region.receive_receive hr.toWellFormed, List.take_append,
          List.take_of_length_le hshort]

instance : LawfulSource (Chain P σ) where
  ends_close := ends_finish_of_closable fun _ hm => ⟨rfl, hm⟩
  readU8 := reads_pull (fun _ hm => ⟨rfl, hm⟩) LawfulSource.readU8
  fill := fills_spread (fun _ hm => ⟨rfl, hm⟩) LawfulSource.fill
  readBytes := (fills_spread (fun _ hm => ⟨rfl, hm⟩) LawfulSource.fill).fillCompletely
  readUnits := (reads_pull (fun _ hm => ⟨rfl, hm⟩) LawfulSource.readU8).readUnits

end Chain

/-! ### Trees -/

instance [Content L] : Content (Layer P L σ) where
  content
    | .endpoint s => content s
    | .quota s => content s
    | .closing s => content s
    | .chain s => content s
    | .traced s => content s
    | .relay s => content s

instance [Source L] [Openness L] [Content L] [LawfulSource L] [ClosePolicy P σ] [Harmless P σ] :
    LawfulSource (Layer P L σ) where
  ends_close {s} h := by
    cases s with
    | endpoint s => exact LawfulClose.ends_close (s := s) h
    | quota s => exact LawfulClose.ends_close (s := s) h
    | closing s => exact LawfulClose.ends_close (s := s) h
    | chain s => exact LawfulClose.ends_close (s := s) h
    | traced s => exact LawfulClose.ends_close (s := s) h
    | relay s => exact LawfulClose.ends_close (s := s) h
  readU8
    | .endpoint s, h => LawfulSource.readU8 s h
    | .quota s, h => LawfulSource.readU8 s h
    | .closing s, h => LawfulSource.readU8 s h
    | .chain s, h => LawfulSource.readU8 s h
    | .traced s, h => LawfulSource.readU8 s h
    | .relay s, h => LawfulSource.readU8 s h
  fill
    | .endpoint s, r, h, hr => LawfulSource.fill s r h hr
    | .quota s, r, h, hr => LawfulSource.fill s r h hr
    | .closing s, r, h, hr => LawfulSource.fill s r h hr
    | .chain s, r, h, hr => LawfulSource.fill s r h hr
    | .traced s, r, h, hr => LawfulSource.fill s r h hr
    | .relay s, r, h, hr => LawfulSource.fill s r h hr
  readBytes hr := fun
    | .endpoint s, h => LawfulSource.readBytes hr s h
    | .quota s, h => LawfulSource.readBytes hr s h
    | .closing s, h => LawfulSource.readBytes hr s h
    | .chain s, h => LawfulSource.readBytes hr s h
    | .traced s, h => LawfulSource.readBytes hr s h
    | .relay s, h => LawfulSource.readBytes hr s h
  readUnits n units := fun
    | .endpoint s, h => LawfulSource.readUnits n units s h
    | .quota s, h => LawfulSource.readUnits n units s h
    | .closing s, h => LawfulSource.readUnits n units s h
    | .chain s, h => LawfulSource.readUnits n units s h
    | .traced s, h => LawfulSource.readUnits n units s h
    | .relay s, h => LawfulSource.readUnits n units s h

end Layers

instance Tree.instContent [Content L] : (n : Nat) → Content (Tree P L n)
  | 0 => inferInstanceAs (Content Empty)
  | n + 1 =>
    have := instContent n
    inferInstanceAs (Content (Layer P L (Tree P L n)))

instance Tree.instLawfulSource [Source L] [Openness L] [Content L] [LawfulSource L] :
    (n : Nat) → LawfulSource (Tree StandardPolicy L n)
  | 0 => inferInstanceAs (LawfulSource Empty)
  | n + 1 =>
    have := instLawfulSource n
    inferInstanceAs (LawfulSource (Layer StandardPolicy L (Tree StandardPolicy L n)))

/-! ## The supply -/

/-- A source does not give more than its supply. -/
class LawfulSupply (σ : Type) [Content σ] [Supply σ] : Prop where
  length_content_le : ∀ s : σ, (content s).length ≤ Supply.supply s

section Supply

variable [Content σ] [Supply σ] [LawfulSupply σ]

instance : LawfulSupply Empty where
  length_content_le := nofun

instance : LawfulSupply MemorySource where
  length_content_le s := by
    change (s.data.list.drop s.position).length ≤ s.data.size - s.position
    exact Nat.le_of_eq List.length_drop

instance : LawfulSupply (Quota σ) where
  length_content_le q := by
    have h := LawfulSupply.length_content_le q.inner
    change ((content q.inner).take q.remaining).length ≤ min q.remaining (Supply.supply q.inner)
    rw [List.length_take]
    omega

instance : LawfulSupply (Traced σ) where
  length_content_le t := LawfulSupply.length_content_le t.inner

instance : LawfulSupply (Relay σ) where
  length_content_le t := LawfulSupply.length_content_le t.inner

instance : LawfulSupply (Closing P σ) where
  length_content_le c := LawfulSupply.length_content_le c.inner

instance : LawfulSupply (Chain P σ) where
  length_content_le c := by
    change (c.ahead.flatMap content).length ≤
      c.ahead.foldr (fun m others => Supply.supply m + others) 0
    induction c.ahead with
    | nil => exact Nat.le_refl _
    | cons m rest ih =>
      have hm := LawfulSupply.length_content_le m
      rw [List.flatMap_cons, List.length_append, List.foldr_cons]
      omega

instance [Content L] [Supply L] [LawfulSupply L] : LawfulSupply (Layer P L σ) where
  length_content_le
    | .endpoint s => LawfulSupply.length_content_le s
    | .quota s => LawfulSupply.length_content_le s
    | .closing s => LawfulSupply.length_content_le s
    | .chain s => LawfulSupply.length_content_le s
    | .traced s => LawfulSupply.length_content_le s
    | .relay s => LawfulSupply.length_content_le s

end Supply

instance Tree.instLawfulSupply [Content L] [Supply L] [LawfulSupply L] :
    (n : Nat) → LawfulSupply (Tree P L n)
  | 0 => inferInstanceAs (LawfulSupply Empty)
  | n + 1 =>
    have := instLawfulSupply n
    inferInstanceAs (LawfulSupply (Layer P L (Tree P L n)))

end ByteFlow
