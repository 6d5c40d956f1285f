import ByteFlow.Proofs.Closing.Run
import ByteFlow.Proofs.Durability.Layer
import ByteFlow.Proofs.Meter.Leaves

/-!
# What a run leaves behind

A tree of sinks over devices is written to, drained, flushed and closed as one likes.  Whatever
this does to the devices, each of them takes some bytes, and no device takes the place of another
one.  When a flush of the tree succeeds then, and also when a chain at its root is closed, no
device holds back a byte: all that it ever took was passed on, also if its member was left long
ago.

## Main definitions

* `Succession before after` — the endpoints have taken some bytes, each in its place.
* `Tree.keeps_succession` — whatever is done to a tree, its endpoints do no more than that.
* `PassedOn before after` — whatever the devices took in between was passed on.
* `Tree.durable` — a flush that succeeds reaches every byte, and so does closing a chain.
-/

namespace ByteFlow

open ByteFlow.Action

variable {L P δ σ τ ρ α : Type}

/-! ## The endpoints of a tree, each in its place -/

/-- The endpoints are those from before in the same places, and each has taken some bytes. -/
def Succession [Meter L] (before after : List L) : Prop :=
  List.Forall₂ (fun s t => ∃ bs, Moved s bs t) before after

namespace Succession

variable [Meter L] {before between after : List L}

theorem refl (before : List L) : Succession before before :=
  List.forall₂_same.2 fun s _ => ⟨[], Meter.refl s⟩

theorem trans (h : Succession before between) (h' : Succession between after) :
    Succession before after := by
  induction h generalizing after with
  | nil => exact h'
  | cons hst _ ih =>
    obtain ⟨u, rest, htu, hrest, rfl⟩ := List.forall₂_cons_left_iff.1 h'
    obtain ⟨bs, hbs⟩ := hst
    obtain ⟨cs, hcs⟩ := htu
    exact .cons ⟨bs ++ cs, Meter.trans hbs hcs⟩ (ih hrest)

/-- It is enough to look at the endpoints under one stream of a row. -/
theorem flatMap_append {leaves : σ → List L} {m m' : σ} (h : Succession (leaves m) (leaves m'))
    (earlier later : List σ) :
    Succession ((earlier ++ m :: later).flatMap leaves)
      ((earlier ++ m' :: later).flatMap leaves) := by
  simp only [List.flatMap_append, List.flatMap_cons]
  exact List.rel_append (refl _) (List.rel_append h (refl _))

end Succession

/-- What an endpoint does keeps it in its place. -/
theorem Action.keeps_succession [Meter L] {x : Action τ α} {endpoint : τ → L}
    (hx : ∀ l, Keeps (fun s => ∃ bs, Moved l bs (endpoint s)) x) (before : List L) :
    Keeps (fun s => Succession before [endpoint s]) x := by
  intro s hs
  refine (hx (endpoint s) s ⟨[], Meter.refl _⟩).mono ?_
  intro answer t ht
  exact hs.trans (.cons ht .nil)

namespace Chain

theorem members_cons_left {left ahead : List σ} {m : σ} {policy : P} {closed : Bool} :
    (⟨m :: left, ahead, policy, closed⟩ : Chain P σ).members = left.reverse ++ m :: ahead := by
  simp [members]

variable [Meter L] {leaves : σ → List L} {before : List L}

theorem keeps_succession_onActive {x : Action σ α}
    (hx : ∀ before, Keeps (fun s => Succession before (leaves s)) x) :
    Keeps (fun c : Chain P σ => Succession before (c.members.flatMap leaves)) (onActive x) := by
  rintro ⟨left, _ | ⟨m, rest⟩, policy, closed⟩ hc
  · exact hc
  · rw [ends_onActive_cons]
    refine (hx (leaves m) m (.refl _)).mono ?_
    intro answer m' hm
    exact hc.trans (hm.flatMap_append left.reverse rest)

theorem keeps_succession_onActiveWith {x : Action (σ × ρ) α}
    (hx : ∀ before, Keeps (fun p => Succession before (leaves p.1)) x) :
    Keeps (fun p : Chain P σ × ρ => Succession before (p.1.members.flatMap leaves))
      (onActiveWith x) := by
  rintro ⟨⟨left, _ | ⟨m, rest⟩, policy, closed⟩, a⟩ hc
  · exact hc
  · rw [ends_onActiveWith_cons]
    refine (hx (leaves m) (m, a) (.refl _)).mono ?_
    intro answer p hm
    exact hc.trans (hm.flatMap_append left.reverse rest)

variable [Sink σ]
  (hsink : ∀ before, Sink.Keeps fun s : σ => Succession before (leaves s))
include hsink

/-- The member that is left stays in its place. -/
theorem keeps_succession_leave :
    Keeps (fun c : Chain StandardPolicy σ => Succession before (c.members.flatMap leaves))
      (leave Sink.flush) := by
  rintro ⟨left, _ | ⟨m, rest⟩, policy, closed⟩ hc
  · exact hc
  · rw [ends_leave_cons]
    refine ((hsink (leaves m)).flush m (.refl _)).mono ?_
    intro settled m' hm'
    refine (StandardPolicy.keeps_apply (hsink (leaves m)).close (policy, m') hm').mono ?_
    rintro judged ⟨policy', m''⟩ hm''
    rw [members_cons_left]
    exact hc.trans (hm''.flatMap_append left.reverse rest)

theorem keeps_succession_closeLast :
    Keeps (fun c : Chain StandardPolicy σ => Succession before (c.members.flatMap leaves))
      (closeLast Closeable.close) := by
  rintro ⟨_ | ⟨last, earlier⟩, ahead, policy, closed⟩ hc
  · exact hc
  · rw [ends_closeLast]
    refine ((hsink (leaves last)).close last (.refl _)).mono ?_
    intro answer last' hlast
    rw [members_cons_left] at hc
    dsimp only
    rw [members_cons_left]
    exact hc.trans (hlast.flatMap_append earlier.reverse ahead)

theorem keeps_succession (before : List L) :
    Sink.Keeps fun c : Chain StandardPolicy σ => Succession before (c.members.flatMap leaves) :=
  keeps_sink
    (fun _ hc => ends_finish_of_keeps (keeps_succession_leave hsink)
      (keeps_succession_closeLast hsink) (fun _ => hc) hc)
    (keeps_succession_leave hsink)
    (fun v => keeps_succession_onActive fun before => (hsink before).writeU8 v)
    (keeps_succession_onActive fun before => (hsink before).flush)
    (keeps_succession_onActiveWith fun before => (hsink before).drain)

end Chain

theorem Layer.keeps_succession [Meter L] [Sink L] [Sink σ] {leaves : σ → List L}
    (hend : ∀ l : L, Sink.Keeps fun s => ∃ bs, Moved l bs s)
    (hsink : ∀ before, Sink.Keeps fun s : σ => Succession before (leaves s)) (before : List L) :
    Sink.Keeps fun s : Layer StandardPolicy L σ => Succession before (s.leaves leaves) :=
  keeps_sink
    ⟨Action.keeps_succession (fun l => (hend l).close) before,
      fun v => Action.keeps_succession (fun l => (hend l).writeU8 v) before,
      Action.keeps_succession (fun l => (hend l).flush) before,
      fun bytes => Action.keeps_succession (fun l => (hend l).writeBytes bytes) before,
      fun units => Action.keeps_succession (fun l => (hend l).writeUnits units) before,
      Action.keeps_succession (fun l => (hend l).drain) before⟩
    (Quota.keeps_sink (hsink before))
    (Closing.keeps_sink (StandardPolicy.keeps_apply (hsink before).close) (hsink before))
    (Chain.keeps_succession hsink before) (Traced.keeps_sink (hsink before))
    (Relay.keeps_sink (hsink before))

/-- Whatever is done to a tree, its endpoints take some bytes, each in its place. -/
theorem Tree.keeps_succession [Meter L] [Sink L]
    (hend : ∀ l : L, Sink.Keeps fun s => ∃ bs, Moved l bs s) {n : Nat} (before : List L) :
    Sink.Keeps fun t : Tree StandardPolicy L n => Succession before t.leaves := by
  induction n generalizing before with
  | zero => exact ⟨nofun, fun _ => nofun, nofun, fun _ => nofun, fun _ => nofun, nofun⟩
  | succ n ih => exact Layer.keeps_succession hend ih before

/-! ## Nothing is held back -/

section Clear

variable [Holding σ]

variable [Holding L] {leaves : σ → List L}
  (hleaves : ∀ s : σ, Clear s ↔ ∀ l ∈ leaves s, Clear l)
include hleaves

theorem Chain.clear_iff (c : Chain StandardPolicy σ) :
    Clear c ↔ ∀ l ∈ c.members.flatMap leaves, Clear l := by
  rw [List.forall_mem_flatMap, members, List.forall_mem_append]
  refine and_congr (Iff.trans ?_ (forall₂_congr fun m _ => hleaves m))
    (forall₂_congr fun m _ => hleaves m)
  exact ⟨fun h m hm => h m (List.mem_reverse.1 hm), fun h m hm => h m (List.mem_reverse.2 hm)⟩

theorem Layer.clear_iff (s : Layer StandardPolicy L σ) :
    Clear s ↔ ∀ l ∈ s.leaves leaves, Clear l := by
  cases s with
  | endpoint s => exact (List.forall_mem_singleton (p := fun l : L => Clear l)).symm
  | quota s => exact hleaves s.inner
  | closing s => exact hleaves s.inner
  | chain s => exact s.clear_iff hleaves
  | traced s => exact hleaves s.inner
  | relay s => exact hleaves s.inner

end Clear

/-- A tree holds nothing back if none of its endpoints does. -/
theorem Tree.clear_iff [Holding L] {n : Nat} (t : Tree StandardPolicy L n) :
    Clear t ↔ ∀ l ∈ t.leaves, Clear l := by
  induction n with
  | zero => exact Empty.elim t
  | succ n ih => exact Layer.clear_iff ih t

section PassedOn

open HoldingDevice

variable [OutputDevice δ] [HoldingDevice δ] {before after : List (DeviceSink δ)}

/-- The devices hold nothing back, and whatever each of them has taken was passed on. -/
def PassedOn (before after : List (DeviceSink δ)) : Prop :=
  List.Forall₂ (fun s t => pending t.device = [] ∧
    ∃ bs, Moved s bs t ∧ flushed t.device = flushed s.device ++ bs) before after

theorem PassedOn.of_clear (h : Succession before after) (hbefore : ∀ s ∈ before, Clear s)
    (hafter : ∀ t ∈ after, Clear t) : PassedOn before after := by
  induction h with
  | nil => exact .nil
  | @cons s t rest more hst _ ih =>
    obtain ⟨⟨-, hs⟩, hrest⟩ := List.forall_mem_cons.1 hbefore
    obtain ⟨⟨-, ht⟩, hmore⟩ := List.forall_mem_cons.1 hafter
    obtain ⟨bs, hbs⟩ := hst
    have hbytes : flushed t.device = flushed s.device ++ bs := by
      simpa only [hs, ht, List.append_nil] using accounted hbs
    exact .cons ⟨ht, bs, hbs, hbytes⟩ (ih hrest hmore)

end PassedOn

/-! ## Runs -/

namespace Chain

variable [ClosePolicy P σ] {settle : Action σ Unit}

theorem ends_leave_ahead {left rest : List σ} {m : σ} {policy : P} {closed : Bool} :
    (leave settle).Ends ⟨left, m :: rest, policy, closed⟩ fun _ d =>
      d.ahead = rest ∧ d.closed = closed :=
  ⟨rfl, rfl⟩

theorem ends_leaveEach_ahead (c : Chain P σ) (first : Option Fault) :
    (leaveEach settle c.ahead.length first).Ends c fun _ d => d.ahead = [] := by
  generalize hahead : c.ahead = ahead
  induction ahead generalizing c first with
  | nil => exact hahead
  | cons m rest ih =>
    rcases c with ⟨left, ahead, policy, closed⟩
    obtain rfl : ahead = m :: rest := hahead
    rw [List.length_cons, ends_leaveEach_succ]
    refine ends_leave_ahead.mono ?_
    rintro moved d ⟨hrest, -⟩
    cases moved with
    | ok _ => exact ih d first hrest
    | error fault => exact ih d _ hrest

/-- A chain that was closed has left all its members, and stays like that. -/
theorem keeps_retired [Sink σ] :
    Sink.Keeps fun c : Chain P σ => c.closed = true → c.ahead = [] := by
  have hlast : Keeps (fun c : Chain P σ => c.ahead = []) (closeLast Closeable.close) := by
    rintro ⟨_ | ⟨last, earlier⟩, ahead, policy, closed⟩ hc
    · exact hc
    · exact hc
  have hactive {α : Type} (x : Action σ α) :
      Keeps (fun c : Chain P σ => c.closed = true → c.ahead = []) (onActive x) := by
    rintro ⟨left, _ | ⟨m, rest⟩, policy, closed⟩ hc
    · exact hc
    · exact fun h => absurd (hc h) (List.cons_ne_nil m rest)
  refine keeps_sink ?close ?leave (fun v => hactive _) (hactive _) ?drain
  case close =>
    intro c hc
    refine (ends_finish ..).2 ?_
    by_cases hclosed : c.closed = true
    · rwa [if_pos hclosed]
    · rw [if_neg hclosed]
      refine (ends_leaveEach_ahead { c with closed := true } none).mono ?_
      intro first d hd
      rcases first with fault | _ | fault
      · exact fun _ => hd
      · exact (hlast d hd).mono fun _ _ h _ => h
      · exact (hlast d hd).mono fun _ _ h _ => h
  case leave =>
    rintro ⟨left, _ | ⟨m, rest⟩, policy, closed⟩ hc
    · exact hc
    · exact fun h => absurd (hc h) (List.cons_ne_nil m rest)
  case drain =>
    rintro ⟨⟨left, _ | ⟨m, rest⟩, policy, closed⟩, r⟩ hc
    · exact hc
    · exact fun h => absurd (hc h) (List.cons_ne_nil m rest)

/-- Closing a chain leaves nothing behind, be it the first time or not. -/
theorem ends_close_of_sound [Holding τ] [Sink τ] [DurableSink τ] {c : Chain StandardPolicy τ}
    {member : Bool} (hc : Sound member c) (hretired : c.closed = true → c.ahead = []) :
    (Closeable.close : Action (Chain StandardPolicy τ) Unit).Ends c fun _ d => Clear d := by
  cases hclosed : c.closed with
  | true => exact DurableSink.close_clear c (clear_of_sound hc (hretired hclosed))
  | false => exact ends_finish_of_sound hc hclosed

end Chain

/-- What all operations keep, a run keeps. -/
theorem Sink.Keeps.after [Sink σ] {I : σ → Prop} (h : Sink.Keeps I) {s : σ} (hs : I s)
    (uses : List (Closing.Use Submit)) : I (Closing.after Submit.perform s uses) := by
  induction uses generalizing s with
  | nil => exact hs
  | cons use others ih =>
    cases use with
    | data op => exact ih (h.perform op s hs)
    | close => exact ih (h.close s hs)

theorem DurableSink.keeps [Sink σ] [Holding σ] [DurableSink σ] :
    Sink.Keeps (Sound false : σ → Prop) where
  close := DurableSink.close
  writeU8 v := DurableSink.writeU8 v false
  flush _ hs := (DurableSink.flush hs).mono fun _ _ h => h.1
  writeBytes bytes := DurableSink.writeBytes bytes false
  writeUnits units := DurableSink.writeUnits units false
  drain := DurableSink.drain false

section Durable

open Closing HoldingDevice

variable [OutputDevice δ] [HoldingDevice δ] {n : Nat}

/-- Take a tree of sinks over reliable devices that hold nothing back, and do to it what you like.
If a flush of it succeeds then, no device holds back a byte, and whatever each of them has taken
since the beginning was passed on.  If the tree is a chain that was not closed at the beginning,
the same holds after closing it, whatever that answers. -/
theorem Tree.durable :
    (∀ (t : Tree StandardPolicy (DeviceSink δ) n) (uses : List (Use Submit)),
      (∀ l ∈ t.leaves, Reliable l.device ∧ pending l.device = []) →
        (Sink.flush : Action (Tree StandardPolicy (DeviceSink δ) n) Unit).Ends
          (after Submit.perform t uses)
          fun answer u => answer = .ok () → PassedOn t.leaves u.leaves) ∧
    (∀ (c : Chain StandardPolicy (Tree StandardPolicy (DeviceSink δ) n)) (uses : List (Use Submit)),
      c.closed = false →
      (∀ l ∈ c.members.flatMap Tree.leaves, Reliable l.device ∧ pending l.device = []) →
        (Closeable.close : Action (Chain StandardPolicy _) Unit).Ends
          (after Submit.perform c uses)
          fun _ d => PassedOn (c.members.flatMap Tree.leaves) (d.members.flatMap Tree.leaves)) := by
  have htree (before : List (DeviceSink δ)) :
      Sink.Keeps fun t : Tree StandardPolicy (DeviceSink δ) n => Succession before t.leaves :=
    Tree.keeps_succession DeviceSink.keeps_moved before
  constructor
  · intro t uses ht
    have hsound := DurableSink.keeps.after (DurableSink.sound false (t.clear_iff.2 ht)) uses
    have hplaces := (htree t.leaves).after (.refl t.leaves) uses
    refine ((DurableSink.flush hsound).and ((htree t.leaves).flush _ hplaces)).mono ?_
    rintro answer u ⟨⟨-, hclear⟩, hu⟩ hok
    exact .of_clear hu ht (u.clear_iff.1 (hclear (.inr hok)))
  · intro c uses hopen hc
    have hkeeps := Chain.keeps_succession htree (c.members.flatMap Tree.leaves)
    have hfresh : c.closed = true → c.ahead = [] :=
      fun h => absurd (hopen.symm.trans h) Bool.false_ne_true
    have hretired := Chain.keeps_retired.after hfresh uses
    have hclear : Clear c := (c.clear_iff Tree.clear_iff).2 hc
    have hsound := DurableSink.keeps.after (DurableSink.sound false hclear) uses
    have hplaces := hkeeps.after (.refl _) uses
    refine ((Chain.ends_close_of_sound hsound hretired).and (hkeeps.close _ hplaces)).mono ?_
    rintro answer d ⟨hd, hplaces⟩
    exact .of_clear hplaces hc ((d.clear_iff Tree.clear_iff).1 hd)

/-- Four sinks in two chains take six bytes, although the first of them fails on the way.  Three of
them are left without being closed before the chain is flushed. -/
theorem Tree.durable_of_members_left :
    let broken : IoError := ⟨.brokenPipe, "broken"⟩
    let sink (capacity : Option Nat) (script : List OutputEntry) : DeviceSink ScriptedOutput :=
      ⟨⟨capacity, script, [], ByteArray.empty, ByteArray.empty⟩, false⟩
    let c : Chain StandardPolicy (Tree StandardPolicy (DeviceSink ScriptedOutput) 2) :=
      .new .leaveOpen [.endpoint (sink none [.limit 2, .fault broken, .limit 0]),
        .quota ⟨.endpoint (sink none []), 1⟩,
        .chain (.new .fence [.endpoint (sink (some 2) []), .endpoint (sink none [])])]
    let t : Tree StandardPolicy (DeviceSink ScriptedOutput) 3 := .chain c
    let uses : List (Use Submit) := [.data (.value (.bytes (Bytes.ofList [1, 2, 3]))),
      .data (.value (.bytes (Bytes.ofList [3, 4, 5, 6])))]
    let flushing := (Sink.flush : Action (Tree StandardPolicy (DeviceSink _) 3) Unit).run
      (after Submit.perform t uses)
    let closing := (Closeable.close : Action (Chain StandardPolicy _) Unit).run
      (after Submit.perform c uses)
    flushing.answer = .ok () ∧ PassedOn t.leaves flushing.state.leaves ∧
      flushing.state.leaves.map (fun l => l.device.flushed.list) = [[1, 2], [3], [4, 5], [6]] ∧
      PassedOn (c.members.flatMap Tree.leaves) (closing.state.members.flatMap Tree.leaves) := by
  intro broken sink c t uses flushing closing
  have hok : flushing.answer = .ok () := by decide +kernel
  have hleaves : ∀ l ∈ t.leaves, l.device.flushScript = [] ∧ l.device.pending.list = [] := by
    decide +kernel
  have hfresh : ∀ l ∈ t.leaves, Reliable l.device ∧ pending l.device = [] := by
    intro l hl
    obtain ⟨hscript, hpending⟩ := hleaves l hl
    exact ⟨fun e he => List.not_mem_nil (hscript ▸ he), hpending⟩
  refine ⟨hok, durable.1 t uses hfresh hok, by decide +kernel, durable.2 c uses rfl hfresh⟩

end Durable

end ByteFlow
