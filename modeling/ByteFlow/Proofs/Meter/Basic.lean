import ByteFlow.Proofs.Layer

/-!
# Bytes that went through a stream

To say that no byte is lost or doubled one has to say which bytes went through a stream
between two of its states.  `Moved s bs t` says so: the bytes `bs` and no others went
through the stream, in this order, on the way from `s` to `t`.  For a layer this follows
from what went through the streams under it.

A bulk operation may fail at any place.  What it has moved until then still shows in the
region, and the laws of this file hold whatever the answer is.

## Main definitions

* `Moved s bs t` — the bytes `bs` went through on the way from `s` to `t`.
* `Poured`, `Drained` — what went through arrived in a region, or came out of one.
* `Quiet`, `Pours`, `Drains` — operations that move no bytes, that move them into a region,
  and that move them out of one.
* `MeteredSource`, `MeteredSink` — streams whose bulk operations are of these kinds.
* `Chain.Trail` — the bytes that went through the members of a chain.
-/

namespace ByteFlow

open ByteFlow.Action

/-- Which bytes went through a stream between two states. -/
class Meter (σ : Type) where
  /-- The bytes went through, in this order, from the one state to the other. -/
  Moved : σ → List UInt8 → σ → Prop
  refl : ∀ s, Moved s [] s
  trans : ∀ {s t u bs cs}, Moved s bs t → Moved t cs u → Moved s (bs ++ cs) u

export Meter (Moved)

variable {P L σ τ ρ α : Type}

/-! ## Kinds of operations -/

section Kinds

variable [Meter σ]

/-- Nothing goes through, whatever the answer is. -/
def Quiet (x : Action σ α) : Prop := ∀ s, x.Ends s fun _ t => Moved s [] t

/-- What went through arrived in the window. -/
def Poured (s : σ) (r : Region) (p : σ × Region) : Prop :=
  ∃ bs : List UInt8, bs.length ≤ r.remaining ∧ Moved s bs p.1 ∧ p.2 = r.receive bs

/-- What went through left the window from its front. -/
def Drained (s : σ) (r : Region) (p : σ × Region) : Prop :=
  ∃ n, n ≤ r.remaining ∧ Moved s (r.window.list.take n) p.1 ∧ p.2 = r.skip n

/-- What goes through arrives in the window, whatever the answer is. -/
def Pours (fill : Action (σ × Region) Unit) : Prop :=
  ∀ (s : σ) (r : Region), r.Writable → fill.Ends (s, r) fun _ p => Poured s r p

/-- What goes through leaves the window from its front, whatever the answer is. -/
def Drains (drain : Action (σ × Region) Unit) : Prop :=
  ∀ (s : σ) (r : Region), r.WellFormed → drain.Ends (s, r) fun _ p => Drained s r p

theorem quiet_pure (a : α) : Quiet (pure a : Action σ α) := Meter.refl

/-- Nothing goes through after something did. -/
theorem Meter.trans_nil {s t u : σ} {bs : List UInt8} (h : Moved s bs t) (h' : Moved t [] u) :
    Moved s bs u := by
  have htrans := Meter.trans h h'
  rwa [List.append_nil] at htrans

theorem Poured.refl (s : σ) (r : Region) : Poured s r (s, r) :=
  ⟨[], Nat.zero_le _, Meter.refl s, r.receive_nil.symm⟩

/-- The bytes of a second operation arrive behind those of the first. -/
theorem Poured.trans {s : σ} {r : Region} {p q : σ × Region} (hr : r.WellFormed)
    (h : Poured s r p) (h' : Poured p.1 p.2 q) : Poured s r q := by
  obtain ⟨bs, hbs, hmoved, hp⟩ := h
  obtain ⟨cs, hcs, hmoved', hq⟩ := h'
  rw [hp, Region.remaining_receive] at hcs
  refine ⟨bs ++ cs, ?_, Meter.trans hmoved hmoved', ?_⟩
  · rw [List.length_append]
    omega
  · rw [hq, hp, Region.receive_receive hr]

theorem Poured.writable {s : σ} {r : Region} {p : σ × Region} (hr : r.Writable)
    (h : Poured s r p) : p.2.Writable := by
  obtain ⟨bs, hbs, -, hp⟩ := h
  rw [hp]
  exact hr.receive hbs

theorem Drained.refl (s : σ) (r : Region) : Drained s r (s, r) :=
  ⟨0, Nat.zero_le _, Meter.refl s, rfl⟩

/-- A second operation goes on where the first one stopped. -/
theorem Drained.trans {s : σ} {r : Region} {p q : σ × Region} (h : Drained s r p)
    (h' : Drained p.1 p.2 q) : Drained s r q := by
  obtain ⟨n, hn, hmoved, hp⟩ := h
  obtain ⟨k, hk, hmoved', hq⟩ := h'
  rw [hp, Region.remaining_skip] at hk
  rw [hp, Region.list_window_skip] at hmoved'
  refine ⟨n + k, by omega, ?_, ?_⟩
  · rw [List.take_add]
    exact Meter.trans hmoved hmoved'
  · rw [hq, hp, Region.skip_skip]

theorem Drained.wellFormed {s : σ} {r : Region} {p : σ × Region} (hr : r.WellFormed)
    (h : Drained s r p) : p.2.WellFormed := by
  obtain ⟨n, hn, -, hp⟩ := h
  rw [hp]
  exact hr.skip hn

/-- Nothing goes through after a bulk operation. -/
theorem Poured.trans_nil {s t u : σ} {r q : Region} (h : Poured s r (t, q)) (h' : Moved t [] u) :
    Poured s r (u, q) := by
  obtain ⟨bs, hbs, hmoved, hq⟩ := h
  exact ⟨bs, hbs, Meter.trans_nil hmoved h', hq⟩

theorem Drained.trans_nil {s t u : σ} {r q : Region} (h : Drained s r (t, q))
    (h' : Moved t [] u) : Drained s r (u, q) := by
  obtain ⟨n, hn, hmoved, hq⟩ := h
  exact ⟨n, hn, Meter.trans_nil hmoved h', hq⟩

end Kinds

/-- A source whose bulk operations account for every byte. -/
class MeteredSource (σ : Type) [Source σ] [Meter σ] : Prop where
  close : Quiet (Closeable.close : Action σ Unit)
  fill : Pours (Source.fill : Action (σ × Region) Unit)

/-- A sink whose bulk operations account for every byte. -/
class MeteredSink (σ : Type) [Sink σ] [Meter σ] : Prop where
  close : Quiet (Closeable.close : Action σ Unit)
  flush : Quiet (Sink.flush : Action σ Unit)
  drain : Drains (Sink.drain : Action (σ × Region) Unit)

/-- Policies that let no byte through. -/
class QuietPolicy (P σ : Type) [ClosePolicy P σ] [Meter σ] : Prop where
  ends_onClose : ∀ (policy : P) (s : σ),
    (ClosePolicy.onClose : Action (P × σ) Bool).Ends (policy, s) fun _ p => Moved s [] p.2

theorem StandardPolicy.ends_apply_of_quiet [Closeable σ] [Meter σ]
    (h : Quiet (Closeable.close : Action σ Unit)) (policy : StandardPolicy) (s : σ) :
    (apply : Action (StandardPolicy × σ) Bool).Ends (policy, s) fun _ p => Moved s [] p.2 := by
  rw [ends_apply]
  cases policy with
  | close => exact h s
  | leaveOpen => exact Meter.refl s
  | fence => exact Meter.refl s

instance [Source σ] [Meter σ] [MeteredSource σ] : QuietPolicy StandardPolicy σ where
  ends_onClose := StandardPolicy.ends_apply_of_quiet MeteredSource.close

instance [Sink σ] [Meter σ] [MeteredSink σ] : QuietPolicy StandardPolicy σ where
  ends_onClose := StandardPolicy.ends_apply_of_quiet MeteredSink.close

/-! ## No stream at all -/

instance : Meter Empty where
  Moved := nofun
  refl := nofun
  trans {s} := nomatch s

instance : MeteredSource Empty where
  close := nofun
  fill := nofun

instance : MeteredSink Empty where
  close := nofun
  flush := nofun
  drain := nofun

section Layers

variable [Meter σ]

/-! ## Quotas -/

namespace Quota

/-- What goes through a quota goes through the stream under it, and is counted. -/
instance : Meter (Quota σ) where
  Moved q bs q' := Moved q.inner bs q'.inner ∧ q'.remaining + bs.length = q.remaining
  refl q := ⟨Meter.refl q.inner, rfl⟩
  trans h h' := by
    refine ⟨Meter.trans h.1 h'.1, ?_⟩
    rw [List.length_append]
    omega

theorem quiet_onInner {x : Action σ α} (hx : Quiet x) : Quiet (onInner x) := by
  intro q
  rw [ends_onInner]
  refine (hx q.inner).mono ?_
  intro answer s hs
  exact ⟨hs, rfl⟩

/-- What a fill within a quota moves is counted. -/
theorem poured_clipped {fill : Action (σ × Region) Unit} {s : σ}
    (hfill : ∀ r : Region, r.Writable → fill.Ends (s, r) fun _ p => Poured s r p) (n : Nat)
    {r : Region} (hr : r.Writable) :
    (clipped fill).Ends (⟨s, n⟩, r) fun _ p => Poured (⟨s, n⟩ : Quota σ) r p := by
  rw [ends_clipped]
  by_cases hn : n = 0
  · rw [if_pos hn]
    exact Poured.refl ..
  rw [if_neg hn]
  refine (hfill (r.narrowed n) (hr.narrowed n)).mono ?_
  intro answer final hends
  obtain ⟨t, q⟩ := final
  obtain ⟨bs, hbs, hmoved, rfl⟩ := hends
  rw [Region.remaining_narrowed hr.toWellFormed] at hbs
  refine ⟨bs, by omega, ⟨hmoved, ?_⟩, ?_⟩
  · simp only [Region.position_receive, Region.position_narrowed hr.toWellFormed]
    omega
  · exact Region.setLimit_receive_narrowed hr.toWellFormed hbs

theorem pours_clipped {fill : Action (σ × Region) Unit} (hfill : Pours fill) :
    Pours (clipped fill) :=
  fun q _ hr => poured_clipped (hfill q.inner) q.remaining hr

/-- What a drain within a quota moves is counted. -/
theorem drained_clipped {drain : Action (σ × Region) Unit} {s : σ}
    (hdrain : ∀ r : Region, r.WellFormed → drain.Ends (s, r) fun _ p => Drained s r p) (n : Nat)
    {r : Region} (hr : r.WellFormed) :
    (clipped drain).Ends (⟨s, n⟩, r) fun _ p => Drained (⟨s, n⟩ : Quota σ) r p := by
  rw [ends_clipped]
  by_cases hn : n = 0
  · rw [if_pos hn]
    exact Drained.refl ..
  rw [if_neg hn]
  refine (hdrain (r.narrowed n) (hr.narrowed n)).mono ?_
  intro answer final hends
  obtain ⟨t, q⟩ := final
  obtain ⟨k, hk, hmoved, rfl⟩ := hends
  rw [Region.remaining_narrowed hr] at hk
  rw [Region.list_window_narrowed hr, List.take_take, Nat.min_eq_left (by omega)] at hmoved
  refine ⟨k, by omega, ⟨hmoved, ?_⟩, ?_⟩
  · simp only [Region.position_skip, Region.position_narrowed hr, List.length_take,
      hr.length_window]
    omega
  · exact Region.setLimit_skip_narrowed hr hk

theorem drains_clipped {drain : Action (σ × Region) Unit} (hdrain : Drains drain) :
    Drains (clipped drain) :=
  fun q _ hr => drained_clipped (hdrain q.inner) q.remaining hr

instance [Source σ] [MeteredSource σ] : MeteredSource (Quota σ) where
  close := quiet_onInner MeteredSource.close
  fill := pours_clipped MeteredSource.fill

instance [Sink σ] [MeteredSink σ] : MeteredSink (Quota σ) where
  close := quiet_onInner MeteredSink.close
  flush := quiet_onInner MeteredSink.flush
  drain := drains_clipped MeteredSink.drain

end Quota

/-! ## Wrappers that hand operations on -/

instance : Meter (Traced σ) where
  Moved t bs u := Moved t.inner bs u.inner
  refl t := Meter.refl t.inner
  trans := Meter.trans (σ := σ)

instance [Source σ] [MeteredSource σ] : MeteredSource (Traced σ) where
  close t := MeteredSource.close t.inner
  fill t := MeteredSource.fill t.inner

instance [Sink σ] [MeteredSink σ] : MeteredSink (Traced σ) where
  close t := MeteredSink.close t.inner
  flush t := MeteredSink.flush t.inner
  drain t := MeteredSink.drain t.inner

instance : Meter (Relay σ) where
  Moved t bs u := Moved t.inner bs u.inner
  refl t := Meter.refl t.inner
  trans := Meter.trans (σ := σ)

instance [Source σ] [MeteredSource σ] : MeteredSource (Relay σ) where
  close t := MeteredSource.close t.inner
  fill t := MeteredSource.fill t.inner

instance [Sink σ] [MeteredSink σ] : MeteredSink (Relay σ) where
  close t := MeteredSink.close t.inner
  flush t := MeteredSink.flush t.inner
  drain t := MeteredSink.drain t.inner

namespace Closing

instance : Meter (Closing P σ) where
  Moved c bs d := Moved c.inner bs d.inner
  refl c := Meter.refl c.inner
  trans := Meter.trans (σ := σ)

theorem quiet_whenOpen {x : Action σ α} (hx : Quiet x) :
    Quiet (whenOpen x : Action (Closing P σ) α) := by
  intro c
  cases hclosed : c.closed with
  | false =>
    rw [ends_whenOpen hclosed]
    exact hx c.inner
  | true =>
    rw [ends_whenOpen_of_closed hclosed]
    exact Meter.refl c

theorem pours_whenOpenWith {fill : Action (σ × Region) Unit} (hfill : Pours fill) :
    Pours (whenOpenWith fill : Action (Closing P σ × Region) Unit) := by
  intro c r hr
  cases hclosed : c.closed with
  | false =>
    rw [ends_whenOpenWith hclosed]
    exact hfill c.inner r hr
  | true =>
    rw [ends_whenOpenWith_of_closed hclosed]
    exact Poured.refl c r

theorem drains_whenOpenWith {drain : Action (σ × Region) Unit} (hdrain : Drains drain) :
    Drains (whenOpenWith drain : Action (Closing P σ × Region) Unit) := by
  intro c r hr
  cases hclosed : c.closed with
  | false =>
    rw [ends_whenOpenWith hclosed]
    exact hdrain c.inner r hr
  | true =>
    rw [ends_whenOpenWith_of_closed hclosed]
    exact Drained.refl c r

theorem quiet_shut [ClosePolicy P σ] [QuietPolicy P σ] :
    Quiet (shut : Action (Closing P σ) Unit) := by
  intro c
  rw [ends_shut]
  by_cases happlied : c.applied = true
  · rw [if_pos happlied]
    exact Meter.refl c
  · rw [if_neg happlied]
    refine (QuietPolicy.ends_onClose c.policy c.inner).mono ?_
    intro answer p hp
    cases answer <;> exact hp

instance [Source σ] [MeteredSource σ] [ClosePolicy P σ] [QuietPolicy P σ] :
    MeteredSource (Closing P σ) where
  close := quiet_shut
  fill := pours_whenOpenWith MeteredSource.fill

instance [Sink σ] [MeteredSink σ] [ClosePolicy P σ] [QuietPolicy P σ] :
    MeteredSink (Closing P σ) where
  close := quiet_shut
  flush := quiet_whenOpen MeteredSink.flush
  drain := drains_whenOpenWith MeteredSink.drain

end Closing

/-! ## Chains -/

namespace Chain

/-- What went through the members, given the ones that were left and the ones ahead.  Only
the active member lets bytes through, and it has done so for good when it is left. -/
inductive Trail : (left ahead : List σ) → List UInt8 → (left' ahead' : List σ) → Prop
  | refl (left ahead) : Trail left ahead [] left ahead
  | active {left rest left' ahead' m m' bs cs} :
    Moved m bs m' → Trail left (m' :: rest) cs left' ahead' →
      Trail left (m :: rest) (bs ++ cs) left' ahead'
  | leave {left rest left' ahead' m bs} :
    Trail (m :: left) rest bs left' ahead' → Trail left (m :: rest) bs left' ahead'
  | last {left ahead left' ahead' m m' bs} :
    Moved m [] m' → Trail (m' :: left) ahead bs left' ahead' →
      Trail (m :: left) ahead bs left' ahead'

theorem Trail.trans {left ahead left' ahead' left'' ahead'' : List σ} {bs cs : List UInt8}
    (h : Trail left ahead bs left' ahead') (h' : Trail left' ahead' cs left'' ahead'') :
    Trail left ahead (bs ++ cs) left'' ahead'' := by
  induction h with
  | refl => exact h'
  | active hm _ ih =>
    rw [List.append_assoc]
    exact .active hm (ih h')
  | leave _ ih => exact .leave (ih h')
  | last hm _ ih => exact .last hm (ih h')

instance : Meter (Chain P σ) where
  Moved c bs d := Trail c.left c.ahead bs d.left d.ahead
  refl c := .refl c.left c.ahead
  trans := Trail.trans

variable {left rest : List σ} {m m' : σ} {policy policy' : P} {closed closed' : Bool}

theorem moved_active {bs : List UInt8} (h : Moved m bs m') :
    Moved (⟨left, m :: rest, policy, closed⟩ : Chain P σ) bs
      (⟨left, m' :: rest, policy', closed'⟩ : Chain P σ) := by
  have htrail := Trail.active h (.refl left (m' :: rest))
  rwa [List.append_nil] at htrail

theorem moved_last (h : Moved m [] m') :
    Moved (⟨m :: left, rest, policy, closed⟩ : Chain P σ) []
      (⟨m' :: left, rest, policy', closed'⟩ : Chain P σ) :=
  Trail.last h (.refl (m' :: left) rest)

theorem quiet_onActive {x : Action σ α} (hx : Quiet x) :
    Quiet (onActive x : Action (Chain P σ) α) := by
  intro c
  rcases c with ⟨left, _ | ⟨m, rest⟩, policy, closed⟩
  · exact Trail.refl left []
  · rw [ends_onActive_cons]
    refine (hx m).mono ?_
    intro answer m' hm
    exact moved_active hm

theorem quiet_closeLast {close : Action σ Unit} (hclose : Quiet close) :
    Quiet (closeLast close : Action (Chain P σ) Unit) := by
  intro c
  rcases c with ⟨_ | ⟨last, earlier⟩, ahead, policy, closed⟩
  · exact Trail.refl [] ahead
  · rw [ends_closeLast]
    refine (hclose last).mono ?_
    intro answer last' hlast
    exact moved_last hlast

variable [ClosePolicy P σ] [QuietPolicy P σ] {settle close : Action σ Unit}

/-- Settling the active member and asking the policy let nothing through, and the chain
moves on whatever they answer. -/
theorem ends_leave_of_quiet (hsettle : Quiet settle) {c : Chain P σ}
    (hahead : c.ahead = m :: rest) :
    (leave settle).Ends c fun _ d => Moved c [] d ∧ d.ahead = rest := by
  rcases c with ⟨left, ahead, policy, closed⟩
  obtain rfl : ahead = m :: rest := hahead
  rw [ends_leave_cons]
  refine (hsettle m).mono ?_
  intro settled m' hm'
  refine (QuietPolicy.ends_onClose policy m').mono ?_
  intro judged final hm''
  obtain ⟨policy', m''⟩ := final
  have hmoved : Moved m [] m'' := Meter.trans_nil hm' hm''
  have hactive : Moved (⟨left, m :: rest, policy, closed⟩ : Chain P σ) []
      (⟨left, m'' :: rest, policy, closed⟩ : Chain P σ) := moved_active hmoved
  refine ⟨Meter.trans hactive ?_, rfl⟩
  exact Trail.leave (.refl (m'' :: left) rest)

theorem quiet_leave (hsettle : Quiet settle) : Quiet (leave settle : Action (Chain P σ) Unit) := by
  intro c
  rcases c with ⟨left, _ | ⟨m, rest⟩, policy, closed⟩
  · exact Trail.refl left []
  · exact (ends_leave_of_quiet hsettle rfl).mono fun _ _ h => h.1

theorem quiet_leaveEach (hsettle : Quiet settle) (n : Nat) (first : Option Fault) :
    Quiet (leaveEach settle n first : Action (Chain P σ) (Option Fault)) := by
  intro c
  induction n generalizing first c with
  | zero => exact Meter.refl c
  | succ n ih =>
    rw [ends_leaveEach_succ]
    refine (quiet_leave hsettle c).mono ?_
    intro answer d hd
    rcases answer with fault | _
    · exact (ih (first.or (some fault)) d).mono fun _ _ h => Meter.trans hd h
    · exact (ih first d).mono fun _ _ h => Meter.trans hd h

theorem quiet_finish (hsettle : Quiet settle) (hclose : Quiet close) :
    Quiet (finish settle close : Action (Chain P σ) Unit) := by
  intro c
  rw [ends_finish]
  by_cases hclosed : c.closed = true
  · rw [if_pos hclosed]
    exact Meter.refl c
  rw [if_neg hclosed]
  refine (quiet_leaveEach hsettle c.ahead.length none { c with closed := true }).mono ?_
  intro answer d hd
  rcases answer with fault | _ | fault
  · exact hd
  · exact (quiet_closeLast hclose d).mono fun _ _ h => Meter.trans hd h
  · exact (quiet_closeLast hclose d).mono fun _ _ h => Meter.trans hd h

theorem pours_spread (hsettle : Quiet settle) {fill : Action (σ × Region) Unit}
    (hfill : Pours fill) : Pours (spread settle fill : Action (Chain P σ × Region) Unit) := by
  intro c r hr
  refine ends_spread_of_trans (I := Region.Writable) (R := Poured) Poured.refl ?_ ?_ ?_ c hr
  · intro c r d q p hr h h'
    exact h.trans hr.toWellFormed h'
  · intro left m rest policy closed r hr
    refine (hfill m r hr).mono ?_
    intro answer final hpoured
    have hq := hpoured.writable hr
    obtain ⟨bs, hbs, hm, hreceive⟩ := hpoured
    exact ⟨⟨bs, hbs, moved_active hm, hreceive⟩, hq⟩
  · intro c m rest r hahead
    refine (ends_leave_of_quiet hsettle hahead).mono ?_
    intro moved d hends
    obtain ⟨hd, hrest⟩ := hends
    exact ⟨(Poured.refl c r).trans_nil hd, hrest⟩

theorem drains_spread (hsettle : Quiet settle) {drain : Action (σ × Region) Unit}
    (hdrain : Drains drain) : Drains (spread settle drain : Action (Chain P σ × Region) Unit) := by
  intro c r hr
  refine ends_spread_of_trans (I := Region.WellFormed) (R := Drained) Drained.refl ?_ ?_ ?_ c hr
  · intro c r d q p _ h h'
    exact h.trans h'
  · intro left m rest policy closed r hr
    refine (hdrain m r hr).mono ?_
    intro answer final hdrained
    have hq := hdrained.wellFormed hr
    obtain ⟨n, hn, hm, hskip⟩ := hdrained
    exact ⟨⟨n, hn, moved_active hm, hskip⟩, hq⟩
  · intro c m rest r hahead
    refine (ends_leave_of_quiet hsettle hahead).mono ?_
    intro moved d hends
    obtain ⟨hd, hrest⟩ := hends
    exact ⟨(Drained.refl c r).trans_nil hd, hrest⟩

instance [Source σ] [MeteredSource σ] : MeteredSource (Chain P σ) where
  close := quiet_finish (quiet_pure ()) MeteredSource.close
  fill := pours_spread (quiet_pure ()) MeteredSource.fill

instance [Sink σ] [MeteredSink σ] : MeteredSink (Chain P σ) where
  close := quiet_finish MeteredSink.flush MeteredSink.close
  flush := by
    intro c
    change (gets exhausted >>= fun exhausted =>
      if exhausted then pure () else onActive Sink.flush).Ends c _
    rw [ends_gets_bind]
    by_cases hexhausted : c.exhausted = true
    · rw [if_pos hexhausted]
      exact Meter.refl c
    · rw [if_neg hexhausted]
      exact quiet_onActive MeteredSink.flush c
  drain := drains_spread MeteredSink.flush MeteredSink.drain

end Chain

/-! ## Trees -/

instance [Meter L] : Meter (Layer P L σ) where
  Moved s bs t :=
    match s with
    | .endpoint s =>
      match t with
      | .endpoint t => Moved s bs t
      | _ => False
    | .quota s =>
      match t with
      | .quota t => Moved s bs t
      | _ => False
    | .closing s =>
      match t with
      | .closing t => Moved s bs t
      | _ => False
    | .chain s =>
      match t with
      | .chain t => Moved s bs t
      | _ => False
    | .traced s =>
      match t with
      | .traced t => Moved s bs t
      | _ => False
    | .relay s =>
      match t with
      | .relay t => Moved s bs t
      | _ => False
  refl
    | .endpoint s => Meter.refl s
    | .quota s => Meter.refl s
    | .closing s => Meter.refl s
    | .chain s => Meter.refl s
    | .traced s => Meter.refl s
    | .relay s => Meter.refl s
  trans {s t u bs cs} h h' := by
    -- streams of different kinds have nothing to do with each other
    cases s <;> cases t <;> try exact h.elim
    all_goals cases u <;> try exact h'.elim
    all_goals exact Meter.trans h h'

/-- What goes through a layer goes through the stream of its kind. -/
theorem Layer.moved_cases [Meter L] {motive : Layer P L σ → Layer P L σ → Prop}
    {s t : Layer P L σ} {bs : List UInt8} (h : Moved s bs t)
    (endpoint : ∀ s t, Moved s bs t → motive (.endpoint s) (.endpoint t))
    (quota : ∀ s t, Moved s bs t → motive (.quota s) (.quota t))
    (closing : ∀ s t, Moved s bs t → motive (.closing s) (.closing t))
    (chain : ∀ s t, Moved s bs t → motive (.chain s) (.chain t))
    (traced : ∀ s t, Moved s bs t → motive (.traced s) (.traced t))
    (relay : ∀ s t, Moved s bs t → motive (.relay s) (.relay t)) : motive s t := by
  cases s <;> cases t <;> try exact h.elim
  · exact endpoint _ _ h
  · exact quota _ _ h
  · exact closing _ _ h
  · exact chain _ _ h
  · exact traced _ _ h
  · exact relay _ _ h

instance [Source L] [Meter L] [MeteredSource L] [Source σ] [MeteredSource σ] [ClosePolicy P σ]
    [QuietPolicy P σ] : MeteredSource (Layer P L σ) where
  close
    | .endpoint s => MeteredSource.close s
    | .quota s => MeteredSource.close s
    | .closing s => MeteredSource.close s
    | .chain s => MeteredSource.close s
    | .traced s => MeteredSource.close s
    | .relay s => MeteredSource.close s
  fill
    | .endpoint s, r, hr => MeteredSource.fill s r hr
    | .quota s, r, hr => MeteredSource.fill s r hr
    | .closing s, r, hr => MeteredSource.fill s r hr
    | .chain s, r, hr => MeteredSource.fill s r hr
    | .traced s, r, hr => MeteredSource.fill s r hr
    | .relay s, r, hr => MeteredSource.fill s r hr

instance [Sink L] [Meter L] [MeteredSink L] [Sink σ] [MeteredSink σ] [ClosePolicy P σ]
    [QuietPolicy P σ] : MeteredSink (Layer P L σ) where
  close
    | .endpoint s => MeteredSink.close s
    | .quota s => MeteredSink.close s
    | .closing s => MeteredSink.close s
    | .chain s => MeteredSink.close s
    | .traced s => MeteredSink.close s
    | .relay s => MeteredSink.close s
  flush
    | .endpoint s => MeteredSink.flush s
    | .quota s => MeteredSink.flush s
    | .closing s => MeteredSink.flush s
    | .chain s => MeteredSink.flush s
    | .traced s => MeteredSink.flush s
    | .relay s => MeteredSink.flush s
  drain
    | .endpoint s, r, hr => MeteredSink.drain s r hr
    | .quota s, r, hr => MeteredSink.drain s r hr
    | .closing s, r, hr => MeteredSink.drain s r hr
    | .chain s, r, hr => MeteredSink.drain s r hr
    | .traced s, r, hr => MeteredSink.drain s r hr
    | .relay s, r, hr => MeteredSink.drain s r hr

end Layers

namespace Tree

instance instMeter [Meter L] : (n : Nat) → Meter (Tree P L n)
  | 0 => inferInstanceAs (Meter Empty)
  | n + 1 =>
    have := instMeter n
    inferInstanceAs (Meter (Layer P L (Tree P L n)))

instance instMeteredSource [Source L] [Meter L] [MeteredSource L] :
    (n : Nat) → MeteredSource (Tree StandardPolicy L n)
  | 0 => inferInstanceAs (MeteredSource Empty)
  | n + 1 =>
    have := instMeteredSource n
    inferInstanceAs (MeteredSource (Layer StandardPolicy L (Tree StandardPolicy L n)))

instance instMeteredSink [Sink L] [Meter L] [MeteredSink L] :
    (n : Nat) → MeteredSink (Tree StandardPolicy L n)
  | 0 => inferInstanceAs (MeteredSink Empty)
  | n + 1 =>
    have := instMeteredSink n
    inferInstanceAs (MeteredSink (Layer StandardPolicy L (Tree StandardPolicy L n)))

end Tree

end ByteFlow
