import ByteFlow.Proofs.Acceptance.Barred
import ByteFlow.Proofs.Acceptance.Run
import ByteFlow.Proofs.Digest
import ByteFlow.Proofs.Meter.Leaves

/-!
# Digests of what was accepted

A hashing sink may stand anywhere in a tree of sinks, and its bytes may come one by one, in slices,
from regions and from transfers, with quotas and closed wrappers on their way.  The digest is that
of the bytes that were accepted, and of no others: what is refused on the way, and what comes after
the sink is barred, does not enter it.  So the digest does not depend on the pieces in which the
bytes came, nor on what else was tried.

## Main definitions

* `HashingSink.Hashed a bs s` — the sink was fed these bytes, and no others.
* `Tree.Hashes t u accepted shares` — how the accepted bytes are shared by the endpoints, and what
  the hashing sinks among these make of them.
* `Tree.hashes_accepted` — this holds after every run.
-/

namespace ByteFlow

open ByteFlow.Action

variable {E P S σ : Type}

namespace HashingSink

/-- The sink was fed these bytes since it was new, and no others. -/
structure Hashed (a : Digest.Algorithm) (bs : List UInt8) (s : HashingSink) : Prop where
  algorithm_eq : s.algorithm = a
  state_eq : s.state = (Digest.State.start a).feed bs
  count_eq : s.count = bs.length

theorem hashed_new (a : Digest.Algorithm) : Hashed a [] (new a) := by
  refine ⟨rfl, ?_, rfl⟩
  cases a <;> rfl

variable {a : Digest.Algorithm} {bs cs : List UInt8} {s t : HashingSink}

/-- The bytes may come in pieces. -/
theorem Hashed.moved (h : Hashed a bs s) (hmoved : Moved s cs t) : Hashed a (bs ++ cs) t where
  algorithm_eq := hmoved.1.trans h.algorithm_eq
  state_eq := by rw [hmoved.2.1, h.state_eq, Digest.State.feed_append]
  count_eq := by rw [hmoved.2.2, h.count_eq, List.length_append]

theorem Hashed.finish_eq (h : Hashed a bs s) : s.finish = Bytes.ofList (Digest.digest a bs) := by
  rw [finish, h.state_eq, Digest.State.finish_feed]

end HashingSink

variable [OutputDevice E] [Sink S]

namespace SinkEnd

variable {s : HashingSink} {bs : List UInt8} {l : SinkEnd E S}

theorem moved_hashing (h : Moved (.hashing s : SinkEnd E S) bs l) :
    ∃ t, l = .hashing t ∧ Moved s bs t := by
  cases l with
  | hashing t => exact ⟨t, rfl, h⟩
  | _ => exact h.elim

/-- A hashing sink counts its bytes, so no bytes at all are no others. -/
theorem eq_nil_of_moved_hashing (h : Moved (.hashing s : SinkEnd E S) bs l)
    (hnone : Moved (.hashing s : SinkEnd E S) [] l) : bs = [] := by
  obtain ⟨t, rfl, hmoved⟩ := moved_hashing h
  have hcount : s.count + 0 = s.count + bs.length := hnone.2.2.symm.trans hmoved.2.2
  exact List.length_eq_zero_iff.1 (Nat.add_left_cancel hcount).symm

end SinkEnd

/-- A hashing sink that is barred has no share in what is accepted. -/
def BarredOut (o : Outlet (SinkEnd E S)) (share : Share (SinkEnd E S)) : Prop :=
  o.barred = true → ∀ s, o.sink = .hashing s → share.bytes = []

theorem Withheld.barredOut {before after : List (Outlet (SinkEnd E S))}
    {shares : List (Share (SinkEnd E S))} (h : Withheld false before after)
    (hcovers : Covers shares (before.map Outlet.sink) (after.map Outlet.sink)) :
    List.Forall₂ BarredOut before shares := by
  induction h generalizing shares with
  | nil =>
    obtain rfl := List.map_eq_nil_iff.1 hcovers.before_eq
    exact .nil
  | cons hwithholds _ ih =>
    obtain ⟨share, rest, rfl, hbefore, hbefores⟩ := List.map_eq_cons_iff.1 hcovers.before_eq
    obtain ⟨hafter, hafters⟩ := List.cons.inj hcovers.after_eq
    obtain ⟨hmoved, hmoves⟩ := List.forall_mem_cons.1 hcovers.moved
    refine .cons (fun hbar s hs => ?_) (ih ⟨hbefores, hafters, hmoves⟩)
    rw [hbefore, hafter, hs] at hmoved
    have hnone := hwithholds.2 (.inr hbar)
    rw [hs] at hnone
    exact SinkEnd.eq_nil_of_moved_hashing hmoved hnone

variable {n : Nat}

/-- Some bytes were accepted, and these are the shares of the endpoints in them. -/
structure Tree.Hashes (t u : Tree P (SinkEnd E S) n) (accepted : List UInt8)
    (shares : List (Share (SinkEnd E S))) : Prop where
  /-- Every byte that was accepted went to an endpoint, and all of them came in order. -/
  bytes_eq : shares.flatMap Share.bytes = accepted
  before_eq : shares.map Share.before = t.leaves
  after_eq : shares.map Share.after = u.leaves
  /-- A quota that stands above endpoints is less by their shares. -/
  itemized : t.Itemized shares u
  barredOut : List.Forall₂ BarredOut (t.outlets SinkEnd.sealed) shares
  hashed : ∀ share ∈ shares, ∀ a bs s, share.before = .hashing s → s.Hashed a bs →
    ∃ s', share.after = .hashing s' ∧ s'.Hashed a (bs ++ share.bytes)

theorem Tree.hashes_of_withheld {t u : Tree P (SinkEnd E S) n} {accepted : List UInt8}
    (hmoved : Moved t accepted u)
    (hwithheld : Withheld false (t.outlets SinkEnd.sealed) (u.outlets SinkEnd.sealed)) :
    ∃ shares, t.Hashes u accepted shares := by
  obtain ⟨shares, hitemized, hbytes⟩ := itemized_of_moved hmoved
  have hcovers := hitemized.covers
  refine ⟨shares, hbytes, hcovers.before_eq, hcovers.after_eq, hitemized, ?_, ?_⟩
  · refine hwithheld.barredOut ?_
    rwa [map_outlets, map_outlets]
  · intro share hmem a bs s hs hhashed
    have hshare := hcovers.moved share hmem
    rw [hs] at hshare
    obtain ⟨s', hs', hmoved'⟩ := SinkEnd.moved_hashing hshare
    exact ⟨s', hs', hhashed.moved hmoved'⟩

section Runs

variable [SinkPolicy P] [SilentPolicy P] [DerivedSink S]
variable [Source σ] [Supply σ] [Meter σ]

theorem Tree.hashes_of_accepted {t : Tree P (SinkEnd E S) n} {deeds : List (Deed σ)}
    {log : List (List UInt8)} (h : Deed.Accepted t deeds log) :
    ∃ shares, t.Hashes (Deed.run t deeds) log.flatten shares := by
  have hbars := (Tree.bars (P := P) (n := n) SinkEnd.seals).keeps (t.outlets SinkEnd.sealed)
  exact hashes_of_withheld h.moved (Deed.keeps_run hbars (.refl _) deeds)

/-- The only endpoint of the tree is a hashing sink, with the number and the digest of the bytes. -/
def Tree.Digests (a : Digest.Algorithm) (bs : List UInt8) (t : Tree P (SinkEnd E S) n) : Prop :=
  ∃ s, t.leaves = [.hashing s] ∧ s.count = bs.length ∧
    s.finish = Bytes.ofList (Digest.digest a bs)

theorem Tree.digests_of_accepted {a : Digest.Algorithm} {t : Tree P (SinkEnd E S) n}
    (hnew : t.leaves = [.hashing (.new a)]) {deeds : List (Deed σ)} {log : List (List UInt8)}
    (h : Deed.Accepted t deeds log) : (Deed.run t deeds).Digests a log.flatten := by
  obtain ⟨shares, hshares⟩ := hashes_of_accepted h
  obtain ⟨share, rfl, hbefore⟩ := List.map_eq_singleton_iff.1 (hshares.before_eq.trans hnew)
  obtain ⟨s, hafter, hhashed⟩ :=
    hshares.hashed share List.mem_cons_self a [] _ hbefore (HashingSink.hashed_new a)
  have hbytes : share.bytes = log.flatten := by
    rw [← hshares.bytes_eq, List.flatMap_singleton]
  rw [List.nil_append, hbytes] at hhashed
  refine ⟨s, ?_, hhashed.count_eq, hhashed.finish_eq⟩
  rw [← hshares.after_eq, List.map_singleton, hafter]

/-- Whatever is done to a tree of sinks, some bytes are accepted, and every hashing sink in it has
counted and hashed its share of these, in order, and no other bytes.  A sink that was barred at the
beginning has no share.  So two trees that end in one new hashing sink each have the same digest
when the same bytes were accepted, whatever the pieces were, and whatever was refused in between. -/
theorem Tree.hashes_accepted [MeteredSource σ] [CandidSource σ] {m : Nat} :
    (∀ a, HashingSink.Hashed a [] (.new a)) ∧
    (∀ a bs (s : HashingSink), s.Hashed a bs →
      s.count = bs.length ∧ s.finish = Bytes.ofList (Digest.digest a bs)) ∧
    (∀ (t : Tree P (SinkEnd E S) n) (deeds : List (Deed σ)),
      ∃ log : List (List UInt8), Deed.Accepted t deeds log) ∧
    (∀ (t : Tree P (SinkEnd E S) n) (deeds : List (Deed σ)) (log : List (List UInt8)),
      Deed.Accepted t deeds log → ∃ shares, t.Hashes (Deed.run t deeds) log.flatten shares) ∧
    ∀ (a : Digest.Algorithm) (t : Tree P (SinkEnd E S) n) (u : Tree P (SinkEnd E S) m)
      (deeds deeds' : List (Deed σ)) (log log' : List (List UInt8)),
      t.leaves = [.hashing (.new a)] → u.leaves = [.hashing (.new a)] →
      Deed.Accepted t deeds log → Deed.Accepted u deeds' log' → log.flatten = log'.flatten →
        (Deed.run t deeds).Digests a log.flatten ∧ (Deed.run u deeds').Digests a log.flatten := by
  refine ⟨HashingSink.hashed_new, fun a bs s hs => ⟨hs.count_eq, hs.finish_eq⟩,
    Deed.exists_accepted, fun t deeds log h => hashes_of_accepted h, ?_⟩
  intro a t u deeds deeds' log log' ht hu h h' hsame
  have hu' := digests_of_accepted hu h'
  rw [← hsame] at hu'
  exact ⟨digests_of_accepted ht h, hu'⟩

end Runs

/-- Three bytes fill a quota, the fourth one is refused by it and the fifth one by a wrapper that
was closed.  A transfer with a small buffer brings the same three bytes to a hashing sink that
stands alone.  Both end with the digest of these bytes. -/
theorem Tree.hashes_accepted_of_pieces :
    let t : Tree StandardPolicy (SinkEnd ScriptedOutput BareSink) 3 :=
      Layer.closing (.new .close (Layer.quota ⟨Layer.endpoint (.hashing (.new .sha256)), 3⟩))
    let u : Tree StandardPolicy (SinkEnd ScriptedOutput BareSink) 1 :=
      Layer.endpoint (.hashing (.new .sha256))
    let source : SourceEnd ScriptedInput BareSource := .memory { data := Bytes.ofList [1, 2, 3] }
    let fourth : Deed (SourceEnd ScriptedInput BareSource) := .write (.scalar .u8 (4 : UInt8))
    let fifth : Deed (SourceEnd ScriptedInput BareSource) := .write (.scalar .u8 (5 : UInt8))
    let deeds := [.write (.bytes (Bytes.ofList [1, 2, 3])), fourth, .close, fifth]
    let p : Plan := { bufferSize := 2 }
    let deeds' := [.transfer p source]
    (Deed.run t deeds).Digests .sha256 [1, 2, 3] ∧
      (Deed.run u deeds').Digests .sha256 [1, 2, 3] ∧
      Digest.digest .sha256 [1, 2, 3] = [
        0x03, 0x90, 0x58, 0xc6, 0xf2, 0xc0, 0xcb, 0x49, 0x2c, 0x53, 0x3b, 0x0a, 0x4d, 0x14,
        0xef, 0x77, 0xcc, 0x0f, 0x78, 0xab, 0xcc, 0xce, 0xd5, 0x28, 0x7d, 0x84, 0xa1, 0xa2,
        0x01, 0x1c, 0xfb, 0x81] := by
  intro t u source fourth fifth deeds p deeds'
  obtain ⟨-, -, hexists, -, hsame⟩ := hashes_accepted (P := StandardPolicy) (E := ScriptedOutput)
    (S := BareSink) (σ := SourceEnd ScriptedInput BareSource) (n := 3) (m := 1)
  obtain ⟨log, hlog⟩ := hexists t deeds
  obtain ⟨log', hlog'⟩ := Deed.exists_accepted u deeds'
  have hpieces : log.flatten = [1, 2, 3] := by
    obtain ⟨bs, log, rfl, hfirst, hlog₁⟩ := hlog.head (u := .written (.ok ())) rfl
    obtain ⟨cs, log, rfl, hfourth, hlog₂⟩ := hlog₁.head (u := .written (.error .endOfStream)) rfl
    obtain ⟨ds, log, rfl, hclose, hlog₃⟩ := hlog₂.head (u := .closed (.ok ())) rfl
    obtain ⟨es, log, rfl, hfifth, hlog₄⟩ := hlog₃.head (u := .written (.error .closed)) rfl
    cases hclose
    rw [hlog₄.eq_nil, hfirst.of_written, hfourth.of_refused rfl, hfifth.of_refused rfl]
    rfl
  have hwhole : log'.flatten = [1, 2, 3] := by
    have hanswer : (p.run.run (source, u)).answer = .ok ⟨3, 2, .buffered .indirect 2⟩ := by
      decide +kernel
    obtain ⟨given, log', rfl, htook, hlog'⟩ := hlog'.head (Deed.answer_transfer p source u)
    rw [hanswer] at htook
    generalize (p.run.run (source, u)).state.1 = left at htook
    cases htook with
    | transferred hconveyed =>
      obtain ⟨taken, hmoved, hgiven, -, hbytes⟩ := hconveyed
      have htaken : taken <+: [1, 2, 3] := by
        cases left with
        | memory left => exact ⟨_, hmoved.2.symm⟩
        | _ => exact hmoved.elim
      rw [hlog'.eq_nil, (hgiven.trans htaken).eq_of_length (hbytes _ rfl).symm]
      rfl
  have hdigests := hsame .sha256 t u deeds deeds' log log' rfl rfl hlog hlog'
    (hpieces.trans hwhole.symm)
  rw [hpieces] at hdigests
  exact ⟨hdigests.1, hdigests.2, by decide +kernel⟩

end ByteFlow
