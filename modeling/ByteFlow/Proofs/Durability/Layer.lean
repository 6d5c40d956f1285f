import ByteFlow.Proofs.Durability.Device

/-!
# What a flush reaches

A flush of a chain reaches the active member only, so the members that were left must hold
nothing back, and neither must those whose turn has not come.  They do not, since a member is
flushed before it is left.  A wrapper that counts as closed refuses the flush, but in a chain this
does no harm: a member is closed only after it was flushed.  Outside of a chain a wrapper may be
closed over bytes that are held back, and then flushing it fails.

## Main definitions

* `Clear s` — no endpoint under the stream holds back a byte.
* `Sound member s` — a flush reaches whatever is held back; if it fails, this holds of a member
  of a chain only.
* `DurableSink σ` — the operations of the sink keep it so.
* `Chain.ends_finish_of_sound` — closing a chain leaves nothing behind.
-/

namespace ByteFlow

open ByteFlow.Action

variable {L δ σ ρ α : Type}

/-- Where the bytes are that are held back under a stream. -/
class Holding (σ : Type) where
  /-- Nothing is held back. -/
  Clear : σ → Prop
  /-- What is held back can be reached.  In a chain a member does not count as closed as long as
  there is something to be reached. -/
  Sound : (member : Bool) → σ → Prop

export Holding (Clear Sound)

/-- A sink whose operations leave within reach what is held back, and whose flush leaves nothing
behind. -/
class DurableSink (σ : Type) [Sink σ] [Holding σ] : Prop where
  sound : ∀ {s : σ} (member : Bool), Clear s → Sound member s
  writeU8 : ∀ v member, Keeps (Sound member) (Sink.writeU8 v : Action σ Unit)
  writeBytes : ∀ bytes member, Keeps (Sound member) (Sink.writeBytes bytes : Action σ Unit)
  writeUnits : ∀ units member, Keeps (Sound member) (Sink.writeUnits units : Action σ Unit)
  drain : ∀ member, Keeps (fun p => Sound member p.1) (Sink.drain : Action (σ × Region) Unit)
  /-- A member of a chain holds nothing back after a flush, whatever that answers. -/
  flush : ∀ {s : σ} {member : Bool}, Sound member s → (Sink.flush : Action σ Unit).Ends s
    fun answer t => Sound member t ∧ (member = true ∨ answer = .ok () → Clear t)
  /-- A member of a chain is not closed by its user. -/
  close : Keeps (Sound false) (Closeable.close : Action σ Unit)
  close_clear : Keeps Clear (Closeable.close : Action σ Unit)

/-! ## Endpoints -/

instance : Holding Empty where
  Clear := nofun
  Sound _ := nofun

instance : DurableSink Empty where
  sound {s} := nomatch s
  writeU8 _ _ := nofun
  writeBytes _ _ := nofun
  writeUnits _ _ := nofun
  drain _ := nofun
  flush {s} := nomatch s
  close := nofun
  close_clear := nofun

namespace DeviceSink

open HoldingDevice

variable [OutputDevice δ] [HoldingDevice δ]

/-- A device that is let go of was flushed before. -/
instance : Holding (DeviceSink δ) where
  Clear s := Reliable s.device ∧ pending s.device = []
  Sound _ s := Reliable s.device ∧ (s.closed = true → pending s.device = [])

theorem keeps_sound_whenOpenWith {x : Action (δ × ρ) α}
    (hx : ∀ d, Keeps (fun p => OutputDevice.Follows d p.1) x) (member : Bool) :
    Keeps (fun p => Sound member p.1) (whenOpenWith x) := by
  rintro ⟨⟨d, closed⟩, a⟩ ⟨hd, hclosed⟩
  cases closed with
  | true => exact ⟨hd, hclosed⟩
  | false =>
    change x.Ends (d, a) fun _ p => Sound member (⟨p.1, false⟩ : DeviceSink δ)
    refine (hx d (d, a) (.refl d)).mono ?_
    rintro answer p ⟨bs, hbs⟩
    exact ⟨reliable_of_trail hbs hd, fun h => absurd h Bool.false_ne_true⟩

theorem keeps_sound_writeBytes (bytes : Bytes) (member : Bool) :
    Keeps (Sound member) (writeBytes bytes : Action (DeviceSink δ) Unit) :=
  ((keeps_sound_whenOpenWith OutputDevice.keeps_writeAll member).alongside _).bind fun _ => .pure _

/-- Closing the sink flushes the device, unless that was done when it was closed before. -/
theorem ends_shut_of_sound {s : DeviceSink δ} {member : Bool} (hs : Sound member s) :
    (shut : Action (DeviceSink δ) Unit).Ends s fun _ t => Clear t := by
  rcases s with ⟨d, _ | _⟩
  · change OutputDevice.pushOut.Ends d fun _ d' => Clear (⟨d', true⟩ : DeviceSink δ)
    exact (ends_pushOut_of_reliable hs.1).mono fun _ _ h => ⟨h.2.2, h.2.1⟩
  · exact ⟨hs.1, hs.2 rfl⟩

instance : DurableSink (DeviceSink δ) where
  sound _ h := ⟨h.1, fun _ => h.2⟩
  writeU8 _ := keeps_sound_writeBytes _
  writeBytes := keeps_sound_writeBytes
  writeUnits units member := Sink.keeps_writeUnits (fun _ => keeps_sound_writeBytes _ member) units
  drain := keeps_sound_whenOpenWith OutputDevice.keeps_writeSome
  flush {s member} hs := by
    rcases s with ⟨d, _ | _⟩
    · change OutputDevice.pushOut.Ends d fun answer d' =>
        Sound member (⟨d', false⟩ : DeviceSink δ) ∧
          (member = true ∨ answer = .ok () → Clear (⟨d', false⟩ : DeviceSink δ))
      refine (ends_pushOut_of_reliable hs.1).mono ?_
      rintro answer d' ⟨-, hpending, hd'⟩
      exact ⟨⟨hd', fun _ => hpending⟩, fun _ => ⟨hd', hpending⟩⟩
    · exact ⟨hs, fun _ => ⟨hs.1, hs.2 rfl⟩⟩
  close s hs := (ends_shut_of_sound hs).mono fun _ _ h => ⟨h.1, fun _ => h.2⟩
  close_clear s hs := by
    have hsound : Sound true s := ⟨hs.1, fun _ => hs.2⟩
    exact ends_shut_of_sound hsound

end DeviceSink

/-! ## Layers over one stream -/

section Layers

variable [Holding σ]

instance : Holding (Quota σ) where
  Clear q := Clear q.inner
  Sound member q := Sound member q.inner

instance [Sink σ] [DurableSink σ] : DurableSink (Quota σ) where
  sound member h := DurableSink.sound (σ := σ) member h
  writeU8 v member := Quota.keeps_counted (DurableSink.writeU8 v member)
  writeBytes bytes member :=
    Sink.keeps_drainCompletely (Quota.keeps_clipped (DurableSink.drain member)) bytes
  writeUnits units member :=
    Sink.keeps_writeUnits (fun v => Quota.keeps_counted (DurableSink.writeU8 v member)) units
  drain member := Quota.keeps_clipped (DurableSink.drain member)
  flush h := DurableSink.flush (σ := σ) h
  close q h := DurableSink.close q.inner h
  close_clear q h := DurableSink.close_clear q.inner h

instance : Holding (Traced σ) where
  Clear t := Clear t.inner
  Sound member t := Sound member t.inner

instance [Sink σ] [DurableSink σ] : DurableSink (Traced σ) where
  sound member h := DurableSink.sound (σ := σ) member h
  writeU8 v member t h := DurableSink.writeU8 v member t.inner h
  writeBytes bytes member t h := DurableSink.writeBytes bytes member t.inner h
  writeUnits units member t h := DurableSink.writeUnits units member t.inner h
  drain member p h := DurableSink.drain member (p.1.inner, p.2) h
  flush h := DurableSink.flush (σ := σ) h
  close t h := DurableSink.close t.inner h
  close_clear t h := DurableSink.close_clear t.inner h

instance : Holding (Relay σ) where
  Clear t := Clear t.inner
  Sound member t := Sound member t.inner

instance [Sink σ] [DurableSink σ] : DurableSink (Relay σ) where
  sound member h := DurableSink.sound (σ := σ) member h
  writeU8 v member t h := DurableSink.writeU8 v member t.inner h
  writeBytes bytes member t h := DurableSink.writeBytes bytes member t.inner h
  writeUnits units member t h := DurableSink.writeUnits units member t.inner h
  drain member p h := DurableSink.drain member (p.1.inner, p.2) h
  flush h := DurableSink.flush (σ := σ) h
  close t h := DurableSink.close t.inner h
  close_clear t h := DurableSink.close_clear t.inner h

namespace Closing

instance : Holding (Closing StandardPolicy σ) where
  Clear c := Clear c.inner
  Sound member c := Sound member c.inner ∧ (member = true → c.closed = true → Clear c.inner)

theorem keeps_sound_whenOpen {x : Action σ α} {member : Bool} (hx : Keeps (Sound member) x) :
    Keeps (Sound member) (whenOpen x : Action (Closing StandardPolicy σ) α) := by
  intro c hc
  cases hclosed : c.closed with
  | true => exact (ends_whenOpen_of_closed hclosed ..).2 hc
  | false =>
    rw [ends_whenOpen hclosed]
    refine (hx c.inner hc.1).mono ?_
    intro answer s hs
    exact ⟨hs, fun _ h => absurd (hclosed.symm.trans h) Bool.false_ne_true⟩

theorem keeps_sound_whenOpenWith {x : Action (σ × ρ) α} {member : Bool}
    (hx : Keeps (fun p => Sound member p.1) x) :
    Keeps (fun p => Sound member p.1)
      (whenOpenWith x : Action (Closing StandardPolicy σ × ρ) α) := by
  rintro ⟨c, a⟩ hc
  cases hclosed : c.closed with
  | true => exact (ends_whenOpenWith_of_closed hclosed ..).2 hc
  | false =>
    rw [ends_whenOpenWith hclosed]
    refine (hx (c.inner, a) hc.1).mono ?_
    intro answer p hp
    exact ⟨hp, fun _ h => absurd (hclosed.symm.trans h) Bool.false_ne_true⟩

instance [Sink σ] [DurableSink σ] : DurableSink (Closing StandardPolicy σ) where
  sound member h := ⟨DurableSink.sound (σ := σ) member h, fun _ _ => h⟩
  writeU8 v member := keeps_sound_whenOpen (DurableSink.writeU8 v member)
  writeBytes bytes member := keeps_sound_whenOpen (DurableSink.writeBytes bytes member)
  writeUnits units member := keeps_sound_whenOpen (DurableSink.writeUnits units member)
  drain member := keeps_sound_whenOpenWith (DurableSink.drain member)
  flush {c member} hc := by
    cases hclosed : c.closed with
    | true =>
      refine (ends_whenOpen_of_closed hclosed ..).2 ⟨hc, ?_⟩
      rintro (hmember | hok)
      · exact hc.2 hmember hclosed
      · simp at hok
    | false =>
      refine (ends_whenOpen hclosed ..).2 ((DurableSink.flush hc.1).mono ?_)
      rintro answer s ⟨hs, hclear⟩
      exact ⟨⟨hs, fun _ h => absurd (hclosed.symm.trans h) Bool.false_ne_true⟩, hclear⟩
  close c hc := by
    refine (keeps_shut (StandardPolicy.keeps_apply DurableSink.close) c hc.1).mono ?_
    intro answer d hd
    exact ⟨hd, fun h => absurd h Bool.false_ne_true⟩
  close_clear := keeps_shut (StandardPolicy.keeps_apply DurableSink.close_clear)

end Closing

/-! ## Chains -/

namespace Chain

/-- Only the active member holds bytes back. -/
instance : Holding (Chain StandardPolicy σ) where
  Clear c := (∀ m ∈ c.left, Clear m) ∧ ∀ m ∈ c.ahead, Clear m
  Sound _ c := (∀ m ∈ c.left, Clear m) ∧
    match c.ahead with
    | [] => True
    | m :: rest => Sound true m ∧ ∀ k ∈ rest, Clear k

variable {c : Chain StandardPolicy σ} {member : Bool}

/-- A chain that has left all its members holds nothing back. -/
theorem clear_of_sound (hc : Sound member c) (hahead : c.ahead = []) : Clear c :=
  ⟨hc.1, by simp [hahead]⟩

theorem keeps_onActive {x : Action σ α} (hx : Keeps (Sound true) x) :
    Keeps (Sound member) (onActive x : Action (Chain StandardPolicy σ) α) := by
  rintro ⟨left, _ | ⟨m, rest⟩, policy, closed⟩ hc
  · exact hc
  · obtain ⟨hleft, hm, hrest⟩ := hc
    rw [ends_onActive_cons]
    exact (hx m hm).mono fun _ m' hm' => ⟨hleft, hm', hrest⟩

theorem keeps_onActiveWith {x : Action (σ × ρ) α} (hx : Keeps (fun p => Sound true p.1) x) :
    Keeps (fun p => Sound member p.1)
      (onActiveWith x : Action (Chain StandardPolicy σ × ρ) α) := by
  rintro ⟨⟨left, _ | ⟨m, rest⟩, policy, closed⟩, a⟩ hc
  · exact hc
  · obtain ⟨hleft, hm, hrest⟩ := hc
    rw [ends_onActiveWith_cons]
    exact (hx (m, a) hm).mono fun _ p hp => ⟨hleft, hp, hrest⟩

variable [Sink σ] [DurableSink σ]

theorem sound_of_clear (hc : Clear c) : Sound member c := by
  rcases c with ⟨left, _ | ⟨m, rest⟩, policy, closed⟩
  · exact ⟨hc.1, trivial⟩
  · obtain ⟨hm, hrest⟩ := List.forall_mem_cons.1 hc.2
    exact ⟨hc.1, DurableSink.sound true hm, hrest⟩

/-- The active member is flushed before it is left, and the policy does not undo that. -/
theorem ends_leave_of_sound {m : σ} {rest : List σ} (hc : Sound member c)
    (hahead : c.ahead = m :: rest) :
    (leave Sink.flush).Ends c fun _ d => Sound member d ∧ d.ahead = rest := by
  rcases c with ⟨left, ahead, policy, closed⟩
  obtain rfl : ahead = m :: rest := hahead
  obtain ⟨hleft, hm, hrest⟩ := hc
  rw [ends_leave_cons]
  refine (DurableSink.flush hm).mono ?_
  rintro settled m' ⟨-, hm'⟩
  refine (StandardPolicy.keeps_apply DurableSink.close_clear (policy, m')
    (hm' (.inl rfl))).mono ?_
  rintro judged ⟨policy', m''⟩ hm''
  have hleft' : ∀ l ∈ m'' :: left, Clear l := List.forall_mem_cons.2 ⟨hm'', hleft⟩
  refine ⟨?_, rfl⟩
  cases rest with
  | nil => exact ⟨hleft', trivial⟩
  | cons k others =>
    obtain ⟨hk, hothers⟩ := List.forall_mem_cons.1 hrest
    exact ⟨hleft', DurableSink.sound true hk, hothers⟩

theorem keeps_leave :
    Keeps (Sound member) (leave Sink.flush : Action (Chain StandardPolicy σ) Unit) := by
  intro c hc
  cases hahead : c.ahead with
  | nil =>
    rcases c with ⟨left, ahead, policy, closed⟩
    obtain rfl : ahead = [] := hahead
    exact hc
  | cons m rest => exact (ends_leave_of_sound hc hahead).mono fun _ _ h => h.1

/-- When all members were left, nothing is held back. -/
theorem ends_leaveEach_of_sound (hc : Sound member c) (first : Option Fault) :
    (leaveEach Sink.flush c.ahead.length first).Ends c fun _ d => Clear d := by
  generalize hahead : c.ahead = ahead
  induction ahead generalizing c first with
  | nil => exact clear_of_sound hc hahead
  | cons m rest ih =>
    rw [List.length_cons, ends_leaveEach_succ]
    refine (ends_leave_of_sound hc hahead).mono ?_
    rintro moved d ⟨hd, hrest⟩
    cases moved with
    | ok _ => exact ih hd first hrest
    | error fault => exact ih hd _ hrest

theorem keeps_closeLast :
    Keeps Clear (closeLast Closeable.close : Action (Chain StandardPolicy σ) Unit) := by
  rintro ⟨_ | ⟨last, earlier⟩, ahead, policy, closed⟩ hc
  · exact hc
  · obtain ⟨hlast, hearlier⟩ := List.forall_mem_cons.1 hc.1
    rw [ends_closeLast]
    refine (DurableSink.close_clear last hlast).mono ?_
    intro answer last' hlast'
    exact ⟨List.forall_mem_cons.2 ⟨hlast', hearlier⟩, hc.2⟩

/-- Closing a chain for the first time leaves nothing behind, whatever it answers. -/
theorem ends_finish_of_sound (hc : Sound member c) (hopen : c.closed = false) :
    (finish Sink.flush Closeable.close).Ends c fun _ d => Clear d := by
  have hfresh : Sound member { c with closed := true } := hc
  rw [ends_finish, if_neg (ne_true_of_eq_false hopen)]
  refine (ends_leaveEach_of_sound hfresh none).mono ?_
  intro first d hd
  rcases first with fault | _ | fault
  · exact hd
  · exact keeps_closeLast d hd
  · exact keeps_closeLast d hd

instance : DurableSink (Chain StandardPolicy σ) where
  sound _ := sound_of_clear
  writeU8 v member := keeps_pull keeps_leave (keeps_onActive (DurableSink.writeU8 v true))
  writeBytes bytes member := Sink.keeps_drainCompletely
    (keeps_spread keeps_leave.onFirst (keeps_onActiveWith (DurableSink.drain true))) bytes
  writeUnits units member := Sink.keeps_writeUnits
    (fun v => keeps_pull keeps_leave (keeps_onActive (DurableSink.writeU8 v true))) units
  drain member := keeps_spread keeps_leave.onFirst (keeps_onActiveWith (DurableSink.drain true))
  flush {c member} hc := by
    change (gets exhausted >>= fun exhausted =>
      if exhausted then pure () else onActive Sink.flush).Ends c _
    rw [ends_gets_bind]
    rcases c with ⟨left, _ | ⟨m, rest⟩, policy, closed⟩
    · exact ⟨hc, fun _ => clear_of_sound hc rfl⟩
    · obtain ⟨hleft, hm, hrest⟩ := hc
      change (onActive Sink.flush).Ends _ _
      rw [ends_onActive_cons]
      refine (DurableSink.flush hm).mono ?_
      rintro answer m' ⟨hm', hclear⟩
      have hclear' : ∀ k ∈ m' :: rest, Clear k :=
        List.forall_mem_cons.2 ⟨hclear (.inl rfl), hrest⟩
      exact ⟨⟨hleft, hm', hrest⟩, fun _ => ⟨hleft, hclear'⟩⟩
  close c hc := by
    cases hclosed : c.closed with
    | true =>
      refine (ends_finish ..).2 ?_
      rwa [if_pos hclosed]
    | false => exact (ends_finish_of_sound hc hclosed).mono fun _ _ => sound_of_clear
  close_clear c hc := by
    cases hclosed : c.closed with
    | true =>
      refine (ends_finish ..).2 ?_
      rwa [if_pos hclosed]
    | false =>
      have hsound : Sound true c := sound_of_clear hc
      exact ends_finish_of_sound hsound hclosed

end Chain

/-! ## Trees -/

instance [Holding L] : Holding (Layer StandardPolicy L σ) where
  Clear
    | .endpoint s => Clear s
    | .quota s => Clear s
    | .closing s => Clear s
    | .chain s => Clear s
    | .traced s => Clear s
    | .relay s => Clear s
  Sound member
    | .endpoint s => Sound member s
    | .quota s => Sound member s
    | .closing s => Sound member s
    | .chain s => Sound member s
    | .traced s => Sound member s
    | .relay s => Sound member s

instance [Holding L] [Sink L] [DurableSink L] [Sink σ] [DurableSink σ] :
    DurableSink (Layer StandardPolicy L σ) where
  sound {s} member hs := by
    cases s with
    | endpoint s => exact DurableSink.sound (s := s) member hs
    | quota s => exact DurableSink.sound (s := s) member hs
    | closing s => exact DurableSink.sound (s := s) member hs
    | chain s => exact DurableSink.sound (s := s) member hs
    | traced s => exact DurableSink.sound (s := s) member hs
    | relay s => exact DurableSink.sound (s := s) member hs
  writeU8 v b := Layer.ends_act (DurableSink.writeU8 v b) (DurableSink.writeU8 v b)
    (DurableSink.writeU8 v b) (DurableSink.writeU8 v b) (DurableSink.writeU8 v b)
    (DurableSink.writeU8 v b)
  writeBytes bs b := Layer.ends_act (DurableSink.writeBytes bs b) (DurableSink.writeBytes bs b)
    (DurableSink.writeBytes bs b) (DurableSink.writeBytes bs b) (DurableSink.writeBytes bs b)
    (DurableSink.writeBytes bs b)
  writeUnits us b := Layer.ends_act (DurableSink.writeUnits us b) (DurableSink.writeUnits us b)
    (DurableSink.writeUnits us b) (DurableSink.writeUnits us b) (DurableSink.writeUnits us b)
    (DurableSink.writeUnits us b)
  drain b := Layer.ends_actWith (DurableSink.drain b) (DurableSink.drain b) (DurableSink.drain b)
    (DurableSink.drain b) (DurableSink.drain b) (DurableSink.drain b)
  flush {s member} hs := by
    cases s with
    | endpoint s => exact DurableSink.flush (s := s) hs
    | quota s => exact DurableSink.flush (s := s) hs
    | closing s => exact DurableSink.flush (s := s) hs
    | chain s => exact DurableSink.flush (s := s) hs
    | traced s => exact DurableSink.flush (s := s) hs
    | relay s => exact DurableSink.flush (s := s) hs
  close := Layer.ends_act DurableSink.close DurableSink.close DurableSink.close DurableSink.close
    DurableSink.close DurableSink.close
  close_clear := Layer.ends_act DurableSink.close_clear DurableSink.close_clear
    DurableSink.close_clear DurableSink.close_clear DurableSink.close_clear DurableSink.close_clear

end Layers

instance Tree.instHolding [Holding L] : (n : Nat) → Holding (Tree StandardPolicy L n)
  | 0 => inferInstanceAs (Holding Empty)
  | n + 1 =>
    have := instHolding n
    inferInstanceAs (Holding (Layer StandardPolicy L (Tree StandardPolicy L n)))

instance Tree.instDurableSink [Holding L] [Sink L] [DurableSink L] :
    (n : Nat) → DurableSink (Tree StandardPolicy L n)
  | 0 => inferInstanceAs (DurableSink Empty)
  | n + 1 =>
    have := instDurableSink n
    inferInstanceAs (DurableSink (Layer StandardPolicy L (Tree StandardPolicy L n)))

end ByteFlow
