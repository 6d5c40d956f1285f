import ByteFlow.Proofs.Meter.Endpoint
import ByteFlow.Proofs.Openness
import Mathlib.Data.ENat.Lattice

/-!
# The capacity of a sink

An open sink has room for so many bytes, possibly without limit, and that number is all
there is to know about it: bytes are taken as long as there is room, one after the other,
and each of them uses up its place.  Every layer computes its capacity from those of the
streams under it, and keeps this law.

## Main definitions

* `capacity s` — how many bytes the sink `s` is going to take.
* `Takes s bs t` — the bytes `bs` were taken, and have used up their places.
* `Puts`, `Empties`, `Writes` — operations that write one byte, a window, and all of their
  bytes.
* `unitBytes us` — the bytes of code units.
* `LawfulSink` — sinks whose operations write as far as there is room.
-/

namespace ByteFlow

open ByteFlow.Action

/-- How many bytes a sink is going to take. -/
class Capacity (σ : Type) where
  capacity : σ → ℕ∞

export Capacity (capacity)

variable {P L σ τ : Type}

/-! ## Kinds of operations -/

section Kinds

variable [Openness σ] [Meter σ] [Capacity σ]

/-- From `s` to `t` the bytes were taken, and each has used up a place. -/
def Takes (s : σ) (bs : List UInt8) (t : σ) : Prop :=
  IsOpen t ∧ Moved s bs t ∧ capacity s = bs.length + capacity t

theorem Takes.refl {s : σ} (h : IsOpen s) : Takes s [] s :=
  ⟨h, Meter.refl s, (zero_add _).symm⟩

theorem Takes.trans {s t u : σ} {bs cs : List UInt8} (h : Takes s bs t) (h' : Takes t cs u) :
    Takes s (bs ++ cs) u := by
  refine ⟨h'.1, Meter.trans h.2.1 h'.2.1, ?_⟩
  rw [h.2.2, h'.2.2, List.length_append, Nat.cast_add, add_assoc]

theorem Takes.trans_nil {s t u : σ} {bs : List UInt8} (h : Takes s bs t) (h' : Takes t [] u) :
    Takes s bs u := by
  have htrans := h.trans h'
  rwa [List.append_nil] at htrans

/-- One byte is taken if there is a place for it. -/
def Puts (put : UInt8 → Action σ Unit) : Prop :=
  ∀ (b : UInt8) (s : σ), IsOpen s → (put b).Ends s fun answer t =>
    answer = .ok () ∧ Takes s [b] t ∨ answer = .error .endOfStream ∧ Takes s [] t ∧ capacity t = 0

/-- The window is taken up to its end, or until there is no place left. -/
def Empties (drain : Action (σ × Region) Unit) : Prop :=
  ∀ (s : σ) (r : Region), IsOpen s → r.WellFormed → drain.Ends (s, r) fun answer p =>
    answer = .ok () ∧ ∃ n, n ≤ r.remaining ∧ Takes s (r.window.list.take n) p.1 ∧
      p.2 = r.skip n ∧ (n = r.remaining ∨ capacity p.1 = 0)

/-- Nothing is taken, and nothing fails. -/
def Rests (x : Action σ Unit) : Prop :=
  ∀ s, IsOpen s → x.Ends s fun answer t => answer = .ok () ∧ Takes s [] t

/-- All of the bytes are taken if there are places for them. -/
def Writes (x : Action σ Unit) (bs : List UInt8) : Prop :=
  ∀ s, IsOpen s → bs.length ≤ capacity s → x.Ends s fun answer t => answer = .ok () ∧ Takes s bs t

/-- What is left after some bytes is enough for the others. -/
theorem Takes.le_capacity {s t : σ} {bs cs : List UInt8} (h : Takes s bs t)
    (hle : ((bs ++ cs).length : ℕ∞) ≤ capacity s) : cs.length ≤ capacity t := by
  rw [h.2.2, List.length_append, Nat.cast_add] at hle
  exact (ENat.add_le_add_iff_left (ENat.natCast_ne_top _)).1 hle

namespace Writes

variable {x : Action σ Unit} {bs cs : List UInt8}

protected theorem pure : Writes (pure () : Action σ Unit) [] := by
  intro s hs _
  exact ⟨rfl, .refl hs⟩

/-- Two writes in a row are one of the bytes of both. -/
protected theorem bind {y : Unit → Action σ Unit} (hx : Writes x bs) (hy : Writes (y ()) cs) :
    Writes (x >>= y) (bs ++ cs) := by
  intro s hs hle
  have hbs : (bs.length : ℕ∞) ≤ capacity s := by
    refine le_trans ?_ hle
    rw [List.length_append]
    exact_mod_cast Nat.le_add_right ..
  rw [ends_bind]
  refine (hx s hs hbs).of_answer ?_
  intro t ht
  refine (hy t ht.1 (ht.le_capacity hle)).of_answer ?_
  intro u hu
  exact ⟨rfl, ht.trans hu⟩

/-- A list of writes is one write of all their bytes. -/
theorem forEach {β : Type} {body : β → Action σ Unit} {bytes : β → List UInt8} {entries : List β}
    (h : ∀ b ∈ entries, Writes (body b) (bytes b)) :
    Writes (Action.forEach entries body) (entries.flatMap bytes) := by
  induction entries with
  | nil => exact Writes.pure
  | cons b rest ih =>
    rw [forEach_cons, List.flatMap_cons]
    exact (h b List.mem_cons_self).bind (ih fun c hc => h c (List.mem_cons_of_mem b hc))

end Writes

theorem Puts.writes {put : UInt8 → Action σ Unit} (h : Puts put) (b : UInt8) :
    Writes (put b) [b] := by
  intro s hs hle
  refine (h b s hs).mono ?_
  intro answer t hends
  rcases hends with ⟨rfl, ht⟩ | ⟨rfl, ht, hzero⟩
  · exact ⟨rfl, ht⟩
  · have hnone : capacity s = 0 := by rw [ht.2.2, hzero]; rfl
    rw [hnone] at hle
    exact absurd hle (by simp)

theorem Puts.writeList {put : UInt8 → Action σ Unit} (h : Puts put) (bs : List UInt8) :
    Writes (Bytewise.writeList put bs) bs := by
  have hall : Writes (Action.forEach bs put) (bs.flatMap fun b => [b]) :=
    Writes.forEach fun b _ => h.writes b
  rwa [List.flatMap_singleton'] at hall

/-- The bytes of code units, one after the other. -/
def unitBytes (us : List UInt16) : List UInt8 := us.flatMap fun u => BigEndian.encode 2 u.toNat

theorem Puts.writeUnits {put : UInt8 → Action σ Unit} (h : Puts put) (units : Array UInt16) :
    Writes (Bytewise.writeUnits put units) (unitBytes units.toList) :=
  Writes.forEach fun _ _ => h.writeList _

/-- A bulk write that is a drain takes all of its bytes. -/
theorem Empties.drainCompletely {drain : Action (σ × Region) Unit} (h : Empties drain)
    (bytes : Bytes) : Writes (Sink.drainCompletely drain bytes) bytes.list := by
  intro s hs hle
  have hremaining : (Region.wrapReadOnly bytes).remaining = bytes.list.length := rfl
  rw [Sink.ends_drainCompletely]
  refine (h s _ hs (Region.wellFormed_wrapReadOnly bytes)).of_answer ?_
  intro final hends
  obtain ⟨t, q⟩ := final
  obtain ⟨n, hn, ht, rfl, hend⟩ := hends
  rw [Region.list_window_wrapReadOnly] at ht
  rw [hremaining] at hn hend
  have hall : n = bytes.list.length := by
    rcases hend with hend | hend
    · exact hend
    · have hcapacity := ht.2.2
      rw [hend, add_zero, List.length_take_of_le hn] at hcapacity
      rw [hcapacity] at hle
      exact Nat.le_antisymm hn (by exact_mod_cast hle)
  subst hall
  rw [List.take_length] at ht
  refine ⟨?_, ht⟩
  simp [Except.bind, hremaining]

end Kinds

/-- A sink that writes as far as there is room. -/
class LawfulSink (σ : Type) [Sink σ] [Openness σ] [Meter σ] [Capacity σ] : Prop
    extends LawfulClose σ where
  writeU8 : Puts (Sink.writeU8 : UInt8 → Action σ Unit)
  flush : Rests (Sink.flush : Action σ Unit)
  drain : Empties (Sink.drain : Action (σ × Region) Unit)
  writeBytes : ∀ bytes : Bytes, Writes (Sink.writeBytes bytes : Action σ Unit) bytes.list
  writeUnits : ∀ units : Array UInt16,
    Writes (Sink.writeUnits units : Action σ Unit) (unitBytes units.toList)

/-! ## Memory -/

instance : Capacity Empty where
  capacity := nofun

instance : LawfulSink Empty where
  ends_close := nofun
  writeU8 _ := nofun
  flush := nofun
  drain := nofun
  writeBytes _ := nofun
  writeUnits _ := nofun

namespace MemorySink

instance : Capacity MemorySink where
  capacity s := s.available

section Metered

/- The meter may be any one that sees what is written to the next places. -/
variable [Meter MemorySink] (hreceive : ∀ {s : MemorySink} {bs : List UInt8},
  bs.length ≤ s.available → Moved s bs (s.receive bs))

include hreceive

theorem takes_receive {s : MemorySink} (hs : IsOpen s) {bs : List UInt8}
    (h : bs.length ≤ s.available) : Takes s bs (s.receive bs) := by
  refine ⟨hs, hreceive h, ?_⟩
  have havailable : s.available = bs.length + (s.receive bs).available := by
    have hsize := size_receive h
    rw [available] at h
    rw [available, available, hsize, position_receive]
    omega
  change (s.available : ℕ∞) = bs.length + (s.receive bs).available
  exact_mod_cast havailable

theorem puts_put : Puts put := by
  intro b s hs
  rw [ends_put hs]
  by_cases hfull : s.available = 0
  · rw [if_pos hfull]
    refine .inr ⟨rfl, .refl hs, ?_⟩
    change (s.available : ℕ∞) = 0
    rw [hfull]
    rfl
  · rw [if_neg hfull]
    refine .inl ⟨rfl, takes_receive hreceive hs ?_⟩
    rw [List.length_singleton]
    omega

theorem empties_copyFrom : Empties copyFrom := by
  intro s r hs hr
  rw [ends_copyFrom hs hr]
  have hle : (r.window.list.take s.available).length ≤ s.available := List.length_take_le ..
  have htakes := takes_receive hreceive hs hle
  have hlength : (r.window.list.take s.available).length = min s.available r.remaining := by
    rw [List.length_take, hr.length_window]
  refine ⟨rfl, min s.available r.remaining, Nat.min_le_right .., ?_, rfl, ?_⟩
  · rwa [← hr.length_window, ← List.take_eq_take_min]
  · by_cases hroom : r.remaining ≤ s.available
    · exact .inl (Nat.min_eq_right hroom)
    · right
      have hcapacity : (s.receive (r.window.list.take s.available)).available = 0 := by
        have havailable : s.available = s.data.size - s.position := rfl
        rw [available, size_receive hle, position_receive, hlength]
        omega
      change ((s.receive (r.window.list.take s.available)).available : ℕ∞) = 0
      rw [hcapacity]
      rfl

theorem lawfulSink : LawfulSink MemorySink where
  ends_close _ := ⟨rfl, trivial⟩
  writeU8 := puts_put hreceive
  flush _ hs := ⟨rfl, .refl hs⟩
  drain := empties_copyFrom hreceive
  writeBytes := (empties_copyFrom hreceive).drainCompletely
  writeUnits := (puts_put hreceive).writeUnits

end Metered

instance : LawfulSink MemorySink := lawfulSink moved_receive

end MemorySink

namespace GrowingSink

/-- There is always room for more. -/
instance : Capacity GrowingSink where
  capacity _ := ⊤

theorem takes_of_list {s t : GrowingSink} (ht : IsOpen t) {bs : List UInt8}
    (h : t.bytes.list = s.bytes.list ++ bs) : Takes s bs t :=
  ⟨ht, h, (add_top _).symm⟩

theorem empties_appendWindow : Empties appendWindow := by
  intro s r hs hr
  have hopen : ¬s.closed = true := Bool.not_eq_true _ ▸ hs
  rw [ends_appendWindow, if_neg hopen]
  refine ⟨rfl, r.remaining, Nat.le_refl _, ?_, rfl, .inl rfl⟩
  rw [← hr.length_window, List.take_length]
  exact takes_of_list (t := { s with bytes := s.bytes ++ r.window }) hs (Bytes.list_append ..)

theorem puts_push : Puts push := by
  intro b s hs
  rw [ends_push hs]
  exact .inl ⟨rfl, takes_of_list (t := { s with bytes := s.bytes.push b }) hs (Bytes.list_push ..)⟩

theorem writes_append (bytes : Bytes) : Writes (append bytes) bytes.list := by
  intro s hs _
  rw [ends_append hs]
  exact ⟨rfl, takes_of_list (t := { s with bytes := s.bytes ++ bytes }) hs (Bytes.list_append ..)⟩

instance : LawfulSink GrowingSink where
  ends_close _ := ⟨rfl, trivial⟩
  writeU8 := puts_push
  flush _ hs := ⟨rfl, .refl hs⟩
  drain := empties_appendWindow
  writeBytes := writes_append
  writeUnits := puts_push.writeUnits

end GrowingSink

section Layers

variable [Openness σ] [Meter σ] [Capacity σ]

/-! ## Quotas -/

namespace Quota

noncomputable instance : Capacity (Quota σ) where
  capacity q := min q.remaining (capacity q.inner)

theorem takes_of_inner {s t : σ} {bs : List UInt8} {m n : Nat} (h : Takes s bs t)
    (hcount : n + bs.length = m) : Takes (⟨s, m⟩ : Quota σ) bs ⟨t, n⟩ := by
  refine ⟨h.1, ⟨h.2.1, hcount⟩, ?_⟩
  change min (m : ℕ∞) (capacity s) = bs.length + min (n : ℕ∞) (capacity t)
  rw [← hcount, h.2.2, ← min_add_add_left, Nat.cast_add, add_comm (n : ℕ∞)]

theorem puts_counted {put : UInt8 → Action σ Unit} (hput : Puts put) :
    Puts fun b => (counted (put b) : Action (Quota σ) Unit) := by
  intro b final hs
  obtain ⟨s, remaining⟩ := final
  rw [ends_counted]
  cases remaining with
  | zero =>
    rw [if_pos rfl]
    exact .inr ⟨rfl, .refl hs, zero_min _⟩
  | succ n =>
    rw [if_neg (Nat.succ_ne_zero n)]
    refine (hput b s hs).mono ?_
    intro answer t hends
    rcases hends with ⟨rfl, ht⟩ | ⟨rfl, ht, hzero⟩
    · exact .inl ⟨rfl, takes_of_inner ht rfl⟩
    · refine .inr ⟨rfl, takes_of_inner ht rfl, ?_⟩
      change min _ (capacity t) = 0
      rw [hzero]
      exact min_zero _

theorem empties_clipped {drain : Action (σ × Region) Unit} (hdrain : Empties drain) :
    Empties (clipped drain) := by
  intro final r hs hr
  obtain ⟨s, limit⟩ := final
  rw [ends_clipped]
  by_cases hlimit : limit = 0
  · subst hlimit
    rw [if_pos rfl]
    exact ⟨rfl, 0, Nat.zero_le _, .refl hs, rfl, .inr (zero_min _)⟩
  rw [if_neg hlimit]
  refine (hdrain s (r.narrowed limit) hs (hr.narrowed limit)).of_answer ?_
  intro final hends
  obtain ⟨t, q⟩ := final
  obtain ⟨n, hn, ht, rfl, hend⟩ := hends
  rw [Region.remaining_narrowed hr] at hn hend
  rw [Region.list_window_narrowed hr, List.take_take, Nat.min_eq_left (by omega)] at ht
  have hlength : (r.window.list.take n).length = n := by
    rw [List.length_take, hr.length_window]
    omega
  have hcount : limit - n + (r.window.list.take n).length = limit := by omega
  simp only [Region.position_skip, Region.position_narrowed hr, Nat.add_sub_cancel_left]
  refine ⟨trivial, n, by omega, takes_of_inner ht hcount, ?_, ?_⟩
  · exact Region.setLimit_skip_narrowed hr hn
  · -- the drain came to the end of the window, of the quota or of the room
    rcases hend with hend | hend
    · by_cases hall : n = r.remaining
      · exact .inl hall
      · right
        have hused : limit - n = 0 := by omega
        change min ((limit - n : Nat) : ℕ∞) (capacity t) = 0
        rw [hused]
        exact zero_min _
    · right
      change min _ (capacity t) = 0
      rw [hend]
      exact min_zero _

instance [Sink σ] [LawfulSink σ] : LawfulSink (Quota σ) where
  ends_close h := LawfulClose.ends_close (σ := σ) h
  writeU8 := puts_counted LawfulSink.writeU8
  flush q hq := by
    change (onInner Sink.flush).Ends q _
    rw [ends_onInner]
    refine (LawfulSink.flush q.inner hq).of_answer ?_
    intro t ht
    exact ⟨rfl, takes_of_inner ht rfl⟩
  drain := empties_clipped LawfulSink.drain
  writeBytes := (empties_clipped LawfulSink.drain).drainCompletely
  writeUnits := (puts_counted LawfulSink.writeU8).writeUnits

end Quota

/-! ## Wrappers that hand operations on -/

instance : Capacity (Traced σ) where
  capacity t := capacity t.inner

instance : Capacity (Relay σ) where
  capacity t := capacity t.inner

instance [Sink σ] [LawfulSink σ] : LawfulSink (Traced σ) where
  ends_close h := LawfulClose.ends_close (σ := σ) h
  writeU8 b t := LawfulSink.writeU8 b t.inner
  flush t := LawfulSink.flush t.inner
  drain t := LawfulSink.drain t.inner
  writeBytes bytes t := LawfulSink.writeBytes bytes t.inner
  writeUnits units t := LawfulSink.writeUnits units t.inner

instance [Sink σ] [LawfulSink σ] : LawfulSink (Relay σ) where
  ends_close h := LawfulClose.ends_close (σ := σ) h
  writeU8 b t := LawfulSink.writeU8 b t.inner
  flush t := LawfulSink.flush t.inner
  drain t := LawfulSink.drain t.inner
  writeBytes bytes t := LawfulSink.writeBytes bytes t.inner
  writeUnits units t := LawfulSink.writeUnits units t.inner

namespace Closing

instance : Capacity (Closing P σ) where
  capacity c := capacity c.inner

theorem takes_of_inner {c : Closing P σ} {t : σ} {bs : List UInt8} (hc : c.closed = false)
    (h : Takes c.inner bs t) : Takes c bs { c with inner := t } :=
  ⟨⟨hc, h.1⟩, h.2⟩

theorem puts_whenOpen {put : UInt8 → Action σ Unit} (hput : Puts put) :
    Puts fun b => (whenOpen (put b) : Action (Closing P σ) Unit) := by
  intro b c hc
  rw [ends_whenOpen hc.1]
  refine (hput b c.inner hc.2).mono ?_
  intro answer t hends
  rcases hends with ⟨rfl, ht⟩ | ⟨rfl, ht, hzero⟩
  · exact .inl ⟨rfl, takes_of_inner hc.1 ht⟩
  · exact .inr ⟨rfl, takes_of_inner hc.1 ht, hzero⟩

theorem writes_whenOpen {x : Action σ Unit} {bs : List UInt8} (hx : Writes x bs) :
    Writes (whenOpen x : Action (Closing P σ) Unit) bs := by
  intro c hc hle
  rw [ends_whenOpen hc.1]
  refine (hx c.inner hc.2 hle).of_answer ?_
  intro t ht
  exact ⟨rfl, takes_of_inner hc.1 ht⟩

theorem rests_whenOpen {x : Action σ Unit} (hx : Rests x) :
    Rests (whenOpen x : Action (Closing P σ) Unit) := by
  intro c hc
  rw [ends_whenOpen hc.1]
  refine (hx c.inner hc.2).of_answer ?_
  intro t ht
  exact ⟨rfl, takes_of_inner hc.1 ht⟩

theorem empties_whenOpenWith {drain : Action (σ × Region) Unit} (hdrain : Empties drain) :
    Empties (whenOpenWith drain : Action (Closing P σ × Region) Unit) := by
  intro c r hc hr
  rw [ends_whenOpenWith hc.1]
  refine (hdrain c.inner r hc.2 hr).of_answer ?_
  intro final hends
  obtain ⟨t, q⟩ := final
  obtain ⟨n, hn, ht, hq, hend⟩ := hends
  exact ⟨rfl, n, hn, takes_of_inner hc.1 ht, hq, hend⟩

instance [Sink σ] [LawfulSink σ] [ClosePolicy P σ] [Harmless P σ] : LawfulSink (Closing P σ) where
  ends_close := ends_shut_of_closable
  writeU8 := puts_whenOpen LawfulSink.writeU8
  flush := rests_whenOpen LawfulSink.flush
  drain := empties_whenOpenWith LawfulSink.drain
  writeBytes bytes := writes_whenOpen (LawfulSink.writeBytes bytes)
  writeUnits units := writes_whenOpen (LawfulSink.writeUnits units)

end Closing

/-! ## Chains -/

namespace Chain

/-- What the members ahead have room for, taken together. -/
instance : Capacity (Chain P σ) where
  capacity c := (c.ahead.map capacity).sum

variable {left rest : List σ} {m m' : σ} {policy : P} {closed : Bool} {c : Chain P σ}

theorem takes_active {bs : List UInt8} (hc : IsOpen (⟨left, m :: rest, policy, closed⟩ : Chain P σ))
    (h : Takes m bs m') :
    Takes (⟨left, m :: rest, policy, closed⟩ : Chain P σ) bs
      (⟨left, m' :: rest, policy, closed⟩ : Chain P σ) := by
  refine ⟨⟨hc.1, List.forall_mem_cons.2 ⟨h.1, (List.forall_mem_cons.1 hc.2).2⟩⟩,
    moved_active h.2.1, ?_⟩
  change ((m :: rest).map capacity).sum = _ + ((m' :: rest).map capacity).sum
  rw [List.map_cons, List.sum_cons, List.map_cons, List.sum_cons, h.2.2, add_assoc]

theorem rests_onActive {x : Action σ Unit} (hx : Rests x) :
    ∀ c, IsOpen c → c.exhausted = false →
      (onActive x : Action (Chain P σ) Unit).Ends c fun answer d =>
        answer = .ok () ∧ Takes c [] d := by
  intro c hc hahead
  rcases c with ⟨left, _ | ⟨m, rest⟩, policy, closed⟩
  · exact nomatch hahead
  · rw [ends_onActive_cons]
    refine (hx m (hc.2 m List.mem_cons_self)).of_answer ?_
    intro m' hm
    exact ⟨rfl, takes_active hc hm⟩

variable [ClosePolicy P σ] [Harmless P σ] [QuietPolicy P σ] {settle : Action σ Unit}

/-- To leave a member without room makes no difference to what the chain can take. -/
theorem ends_leave_of_capacity (hsettle : Rests settle) (hquiet : Quiet settle) (hc : IsOpen c)
    (hahead : c.ahead = m :: rest) (hm : capacity m = 0) :
    (leave settle).Ends c fun answer d => answer = .ok () ∧ Takes c [] d ∧ d.ahead = rest := by
  have hsettles : Settles settle := by
    intro k hk
    refine (hsettle k hk).of_answer ?_
    intro k' hk'
    exact ⟨rfl, hk'.1⟩
  refine ((ends_leave_of_isOpen hsettles hc hahead).and (ends_leave_of_quiet hquiet hahead)).mono ?_
  intro answer d hends
  obtain ⟨⟨rfl, hd, hrest⟩, hmoved, -⟩ := hends
  refine ⟨rfl, ⟨hd, hmoved, ?_⟩, hrest⟩
  change (c.ahead.map capacity).sum = _ + (d.ahead.map capacity).sum
  rw [hahead, hrest, List.map_cons, List.sum_cons, hm]
  rfl

theorem puts_pull (hsettle : Rests settle) (hquiet : Quiet settle) {put : UInt8 → Action σ Unit}
    (hput : Puts put) : Puts fun b => (pull settle (put b) : Action (Chain P σ) Unit) := by
  intro b c hc
  dsimp only
  generalize hahead : c.ahead = ahead
  induction ahead generalizing c with
  | nil =>
    rcases c with ⟨left, ahead, policy, closed⟩
    obtain rfl : ahead = [] := hahead
    rw [ends_pull_nil]
    exact .inr ⟨rfl, .refl hc, rfl⟩
  | cons m rest ih =>
    rcases c with ⟨left, ahead, policy, closed⟩
    obtain rfl : ahead = m :: rest := hahead
    rw [ends_pull_cons]
    refine (hput b m (hc.2 m List.mem_cons_self)).mono ?_
    intro answer m' hends
    rcases hends with ⟨rfl, hm⟩ | ⟨rfl, hm, hzero⟩
    · exact ⟨fun _ => .inl ⟨rfl, takes_active hc hm⟩, nofun⟩
    · -- a member without room is left, and the chain without it is asked
      refine ⟨fun h => absurd rfl h, fun _ => ?_⟩
      have hactive := takes_active hc hm
      refine (ends_leave_of_capacity hsettle hquiet hactive.1 rfl hzero).of_answer ?_
      intro d hends
      obtain ⟨hd, hrest⟩ := hends
      refine (ih d hd.1 hrest).mono ?_
      intro answer e hends
      rcases hends with ⟨rfl, he⟩ | ⟨rfl, he, hnone⟩
      · exact .inl ⟨rfl, (hactive.trans hd).trans he⟩
      · exact .inr ⟨rfl, (hactive.trans hd).trans he, hnone⟩

theorem empties_spread (hsettle : Rests settle) (hquiet : Quiet settle)
    {drain : Action (σ × Region) Unit} (hdrain : Empties drain) :
    Empties (spread settle drain : Action (Chain P σ × Region) Unit) := by
  intro c r hc hr
  generalize hahead : c.ahead = ahead
  induction ahead generalizing c r with
  | nil =>
    rcases c with ⟨left, ahead, policy, closed⟩
    obtain rfl : ahead = [] := hahead
    rw [ends_spread_nil]
    exact ⟨rfl, 0, Nat.zero_le _, .refl hc, rfl, .inr rfl⟩
  | cons m rest ih =>
    rcases c with ⟨left, ahead, policy, closed⟩
    obtain rfl : ahead = m :: rest := hahead
    rw [ends_spread_cons]
    by_cases hroom : r.remaining = 0
    · rw [if_pos hroom]
      exact ⟨rfl, 0, Nat.zero_le _, .refl hc, rfl, .inl hroom.symm⟩
    rw [if_neg hroom]
    refine (hdrain m r (hc.2 m List.mem_cons_self) hr).of_answer ?_
    intro final hends
    obtain ⟨m', q⟩ := final
    obtain ⟨n, hn, hm, rfl, hend⟩ := hends
    have hactive := takes_active hc hm
    simp only [Region.remaining_skip]
    by_cases hall : r.remaining - n = 0
    · rw [if_pos hall]
      exact ⟨trivial, n, hn, hactive, rfl, .inl (by omega)⟩
    · rw [if_neg hall]
      have hzero : capacity m' = 0 := hend.resolve_left (by omega)
      refine (ends_leave_of_capacity hsettle hquiet hactive.1 rfl hzero).of_answer ?_
      intro d hends
      obtain ⟨hd, hrest⟩ := hends
      refine (ih d (r.skip n) hd.1 (hr.skip hn) hrest).of_answer ?_
      intro final hends
      obtain ⟨e, q⟩ := final
      obtain ⟨k, hk, he, rfl, hend'⟩ := hends
      rw [Region.remaining_skip] at hk hend'
      rw [Region.list_window_skip] at he
      refine ⟨rfl, n + k, by omega, ?_, Region.skip_skip .., ?_⟩
      · rw [List.take_add]
        exact (hactive.trans_nil hd).trans he
      · rcases hend' with hend' | hend'
        · exact .inl (by omega)
        · exact .inr hend'

instance [Sink σ] [LawfulSink σ] [MeteredSink σ] : LawfulSink (Chain P σ) where
  ends_close := by
    refine ends_finish_of_closable ?_
    intro m hm
    refine (LawfulSink.flush m hm).of_answer ?_
    intro m' hm'
    exact ⟨rfl, hm'.1⟩
  writeU8 := puts_pull LawfulSink.flush MeteredSink.flush LawfulSink.writeU8
  flush := by
    intro c hc
    change (gets exhausted >>= fun exhausted =>
      if exhausted then pure () else onActive Sink.flush).Ends c _
    rw [ends_gets_bind]
    by_cases hexhausted : c.exhausted = true
    · rw [if_pos hexhausted]
      exact ⟨rfl, .refl hc⟩
    · rw [if_neg hexhausted]
      exact rests_onActive LawfulSink.flush c hc (by simpa using hexhausted)
  drain := empties_spread LawfulSink.flush MeteredSink.flush LawfulSink.drain
  writeBytes :=
    (empties_spread LawfulSink.flush MeteredSink.flush LawfulSink.drain).drainCompletely
  writeUnits := (puts_pull LawfulSink.flush MeteredSink.flush LawfulSink.writeU8).writeUnits

end Chain

/-! ## Trees -/

noncomputable instance [Capacity L] : Capacity (Layer P L σ) where
  capacity
    | .endpoint s => capacity s
    | .quota s => capacity s
    | .closing s => capacity s
    | .chain s => capacity s
    | .traced s => capacity s
    | .relay s => capacity s

instance [Sink L] [Openness L] [Meter L] [Capacity L] [LawfulSink L] [Sink σ] [LawfulSink σ]
    [MeteredSink σ] [ClosePolicy P σ] [Harmless P σ] [QuietPolicy P σ] :
    LawfulSink (Layer P L σ) where
  ends_close {s} h := by
    cases s with
    | endpoint s => exact LawfulClose.ends_close (s := s) h
    | quota s => exact LawfulClose.ends_close (s := s) h
    | closing s => exact LawfulClose.ends_close (s := s) h
    | chain s => exact LawfulClose.ends_close (s := s) h
    | traced s => exact LawfulClose.ends_close (s := s) h
    | relay s => exact LawfulClose.ends_close (s := s) h
  writeU8 b := fun
    | .endpoint s, h => LawfulSink.writeU8 b s h
    | .quota s, h => LawfulSink.writeU8 b s h
    | .closing s, h => LawfulSink.writeU8 b s h
    | .chain s, h => LawfulSink.writeU8 b s h
    | .traced s, h => LawfulSink.writeU8 b s h
    | .relay s, h => LawfulSink.writeU8 b s h
  flush
    | .endpoint s, h => LawfulSink.flush s h
    | .quota s, h => LawfulSink.flush s h
    | .closing s, h => LawfulSink.flush s h
    | .chain s, h => LawfulSink.flush s h
    | .traced s, h => LawfulSink.flush s h
    | .relay s, h => LawfulSink.flush s h
  drain
    | .endpoint s, r, h, hr => LawfulSink.drain s r h hr
    | .quota s, r, h, hr => LawfulSink.drain s r h hr
    | .closing s, r, h, hr => LawfulSink.drain s r h hr
    | .chain s, r, h, hr => LawfulSink.drain s r h hr
    | .traced s, r, h, hr => LawfulSink.drain s r h hr
    | .relay s, r, h, hr => LawfulSink.drain s r h hr
  writeBytes bytes := fun
    | .endpoint s, h => LawfulSink.writeBytes bytes s h
    | .quota s, h => LawfulSink.writeBytes bytes s h
    | .closing s, h => LawfulSink.writeBytes bytes s h
    | .chain s, h => LawfulSink.writeBytes bytes s h
    | .traced s, h => LawfulSink.writeBytes bytes s h
    | .relay s, h => LawfulSink.writeBytes bytes s h
  writeUnits units := fun
    | .endpoint s, h => LawfulSink.writeUnits units s h
    | .quota s, h => LawfulSink.writeUnits units s h
    | .closing s, h => LawfulSink.writeUnits units s h
    | .chain s, h => LawfulSink.writeUnits units s h
    | .traced s, h => LawfulSink.writeUnits units s h
    | .relay s, h => LawfulSink.writeUnits units s h

variable [Openness τ] [Meter τ] [Capacity τ]

instance : Capacity (σ ⊕ τ) where
  capacity := Sum.elim capacity capacity

instance [Sink σ] [Sink τ] [LawfulSink σ] [LawfulSink τ] : LawfulSink (σ ⊕ τ) where
  ends_close {s} h := by
    cases s with
    | inl s => exact LawfulClose.ends_close (s := s) h
    | inr s => exact LawfulClose.ends_close (s := s) h
  writeU8 b := fun
    | .inl s, h => LawfulSink.writeU8 b s h
    | .inr s, h => LawfulSink.writeU8 b s h
  flush
    | .inl s, h => LawfulSink.flush s h
    | .inr s, h => LawfulSink.flush s h
  drain
    | .inl s, r, h, hr => LawfulSink.drain s r h hr
    | .inr s, r, h, hr => LawfulSink.drain s r h hr
  writeBytes bytes := fun
    | .inl s, h => LawfulSink.writeBytes bytes s h
    | .inr s, h => LawfulSink.writeBytes bytes s h
  writeUnits units := fun
    | .inl s, h => LawfulSink.writeUnits units s h
    | .inr s, h => LawfulSink.writeUnits units s h

end Layers

noncomputable instance Tree.instCapacity [Capacity L] : (n : Nat) → Capacity (Tree P L n)
  | 0 => inferInstanceAs (Capacity Empty)
  | n + 1 =>
    have := instCapacity n
    inferInstanceAs (Capacity (Layer P L (Tree P L n)))

instance Tree.instLawfulSink [Sink L] [Openness L] [Meter L] [Capacity L] [LawfulSink L]
    [MeteredSink L] : (n : Nat) → LawfulSink (Tree StandardPolicy L n)
  | 0 => inferInstanceAs (LawfulSink Empty)
  | n + 1 =>
    have := instLawfulSink n
    inferInstanceAs (LawfulSink (Layer StandardPolicy L (Tree StandardPolicy L n)))

end ByteFlow
