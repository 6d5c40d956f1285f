import ByteFlow.Proofs.Codec.Scalar

/-!
# Runs of requests

What a source answers to a run of requests is determined by its content: the same
requests can be put to the list of bytes.  A run does not stop on a failure, so this
also says what becomes of the bytes that a failing request took.

## Main definitions

* `Request`, `Reply` — a data operation, and everything it gives back.
* `Request.perform`, `Request.performAll` — requests to a source.
* `Request.reply`, `Request.replies` — the same requests to a list of bytes.
* `Request.ends_perform`, `Request.ends_performAll` — both give back the same.
-/

namespace ByteFlow

open ByteFlow.Action

/-- A data operation on a source. -/
inductive Request where
  /-- One value of a fixed width. -/
  | scalar (kind : Scalar)
  /-- Bytes for all of a window. -/
  | bytes (region : Region) (writable : region.Writable)
  /-- Code units, to be added to the ones in hand. -/
  | units (n : Nat) (inHand : Array UInt16)
  /-- Bytes for as much of a window as there are. -/
  | fill (region : Region) (writable : region.Writable)

/-- What a data operation gives back, also when it fails. -/
inductive Reply where
  | scalar (kind : Scalar) (answer : Except Fault kind.Val)
  | bytes (answer : Except Fault Unit) (region : Region)
  | units (answer : Except Fault Unit) (inHand : Array UInt16)
  | fill (answer : Except Fault Unit) (region : Region)

namespace Request

variable {σ : Type}

/-- How many bytes the request asks for. -/
def asked : Request → Nat
  | scalar kind => kind.width
  | bytes region _ => region.remaining
  | units n _ => 2 * n
  | fill region _ => region.remaining

/-- Put the request to a source. -/
def perform [Source σ] : Request → Action σ Reply
  | scalar kind => do
    let answer ← attempt kind.read
    pure (.scalar kind answer)
  | bytes region _ => do
    let (answer, region) ← alongside region (attempt Source.readBytes)
    pure (.bytes answer region)
  | units n inHand => do
    let (answer, inHand) ← alongside inHand (attempt (Source.readUnits n))
    pure (.units answer inHand)
  | fill region _ => do
    let (answer, region) ← alongside region (attempt Source.fill)
    pure (.fill answer region)

/-- Put requests to a source, one after the other, whatever each of them answers. -/
def performAll [Source σ] : List Request → Action σ (List Reply)
  | [] => pure []
  | request :: others => do
    let reply ← request.perform
    let replies ← performAll others
    pure (reply :: replies)

/-- Put the request to a list of bytes.  The first bytes that are asked for make up the
reply; only a fill is content with fewer. -/
def reply (bs : List UInt8) : Request → Reply
  | scalar kind => .scalar kind (delivered kind.width bs (kind.decode (bs.take kind.width)))
  | bytes region _ =>
    .bytes (delivered region.remaining bs ()) (region.receive (bs.take region.remaining))
  | units n inHand =>
    .units (delivered (2 * n) bs ()) (inHand ++ (unitsOf (bs.take (2 * n))).toArray)
  | fill region _ => .fill (.ok ()) (region.receive (bs.take region.remaining))

/-- Put requests to a list of bytes, each one to the bytes that the ones before it left. -/
def replies (bs : List UInt8) : List Request → List Reply
  | [] => []
  | request :: others => request.reply bs :: replies (bs.drop request.asked) others

variable [Source σ] [Openness σ] [Content σ] [LawfulSource σ] {s : σ}

/-- One request gives back what the content gives back, and takes the bytes it asked for. -/
theorem ends_perform (request : Request) (hs : IsOpen s) :
    request.perform.Ends s fun answer t =>
      answer = .ok (request.reply (content s)) ∧ Advanced s request.asked t := by
  cases request with
  | scalar kind =>
    rw [perform, ends_attempt_bind]
    refine (kind.reads_read s hs).of_answer ?_
    intro t ht
    exact ⟨rfl, ht⟩
  | bytes region writable =>
    simp only [perform, bind_pure_comp, ends_map, ends_alongside, ends_attempt]
    refine (LawfulSource.readBytes writable s hs).of_answer ?_
    intro final hends
    obtain ⟨t, q⟩ := final
    obtain ⟨ht, rfl⟩ := hends
    exact ⟨rfl, ht⟩
  | units n inHand =>
    simp only [perform, bind_pure_comp, ends_map, ends_alongside, ends_attempt]
    refine (LawfulSource.readUnits n inHand s hs).of_answer ?_
    intro final hends
    obtain ⟨t, q⟩ := final
    obtain ⟨ht, rfl⟩ := hends
    exact ⟨rfl, ht⟩
  | fill region writable =>
    simp only [perform, bind_pure_comp, ends_map, ends_alongside, ends_attempt]
    refine (LawfulSource.fill s region hs writable).of_answer ?_
    intro final hends
    obtain ⟨t, q⟩ := final
    obtain ⟨ht, rfl⟩ := hends
    exact ⟨rfl, ht⟩

/-- A run of requests gives back what the content gives back. -/
theorem ends_performAll (requests : List Request) (hs : IsOpen s) :
    (performAll requests).Ends s fun answer t =>
      answer = .ok (replies (content s) requests) ∧ Advanced s (requests.map asked).sum t := by
  induction requests generalizing s with
  | nil => exact ⟨rfl, hs, rfl⟩
  | cons request others ih =>
    simp only [performAll, bind_pure_comp, ends_bind]
    refine (request.ends_perform hs).of_answer ?_
    intro t ht
    simp only [ends_map]
    refine (ih ht.1).of_answer ?_
    intro u hu
    rw [ht.2]
    exact ⟨rfl, ht.trans hu⟩

end Request

/-- A tree over sources in memory answers every run of requests as the list of its bytes
does, and is left with the bytes that were not asked for. -/
theorem Tree.replies_performAll {n : Nat} {t : Tree StandardPolicy MemorySource n} (ht : IsOpen t)
    (requests : List Request) :
    ((Request.performAll requests).run t).answer =
        .ok (Request.replies (content t) requests) ∧
      IsOpen ((Request.performAll requests).run t).state ∧
      content ((Request.performAll requests).run t).state =
        (content t).drop (requests.map Request.asked).sum :=
  Request.ends_performAll requests ht

/-- A value that begins in one member and ends in the next, and one that is cut off. -/
theorem Tree.replies_performAll_chain :
    ((Request.performAll [.scalar .u16, .scalar .u32]).run
      (Layer.chain (Chain.new .close
        [Layer.quota (Source.bounded 1 (Layer.endpoint ⟨Bytes.ofList [7, 8], 0, false⟩)),
          Layer.closing (Source.withPolicy .fence
            (Layer.endpoint ⟨Bytes.ofList [9, 10], 0, false⟩))]) :
        Tree StandardPolicy MemorySource 3)).answer =
      .ok [.scalar .u16 (.ok (0x0709 : UInt16)), .scalar .u32 (.error .endOfStream)] := by
  refine (Tree.replies_performAll (n := 3) ?_ _).1
  refine (isOpen_chain_new _ _).2 ?_
  refine List.forall_mem_cons.2 ⟨?_, List.forall_mem_singleton.2 ?_⟩
  · exact rfl
  · exact ⟨rfl, rfl⟩

end ByteFlow
