import ByteFlow.Proofs.Acceptance.Drain
import ByteFlow.Proofs.Codec.RoundTrip
import ByteFlow.Proofs.Quota.Chain
import ByteFlow.Proofs.Quota.Endpoint
import ByteFlow.Proofs.Writing.Agreement

/-!
# Writes that are taken from the front

A write may fail in the middle.  What was taken of it then are the bytes in front, and never all of
them, so a value that was refused is not taken for one that was written.  Streams in memory and
devices write like this, each in its own way, and so does every layer over sinks that do.

The policies in a tree have a say in this when something is closed or left.  They may flush the
stream or close it, and what they do beyond that is not to write to it.

## Main definitions

* `Portion`, `Offers` — what is taken of some bytes.
* `OrderlySink` — sinks of which every write is taken from the front.
* `DerivedSink` — streams from outside that have no bulk writes of their own.
* `SilentPolicy` — policies that write nothing.
* `Value.offers_write` — how a value of any kind is written to an orderly sink.
* `Tree.instOrderlySink` — trees of orderly sinks, with silent policies.
-/

namespace ByteFlow

open ByteFlow.Action

variable {E L P S δ σ : Type}

/-! ## What is taken of some bytes -/

/-- All of the bytes, or those in front if the answer is a fault.  These may be all of them only if
the operation was hollow, which is to say that it ends in a write of nothing. -/
def Portion (hollow : Prop) (bs : List UInt8) (answer : Except Fault Unit)
    (front : List UInt8) : Prop :=
  Part bs answer front ∧ (answer ≠ .ok () → front = bs → hollow)

/-- The operation takes the bytes from the front. -/
def Offers [Meter σ] (hollow : Prop) (x : Action σ Unit) (bs : List UInt8) : Prop :=
  ∀ s, x.Ends s fun answer t => ∃ front, Moved s front t ∧ Portion hollow bs answer front

section Offers

variable [Meter σ] {hollow hollow' : Prop} {bs cs : List UInt8} {put : UInt8 → Action σ Unit}

theorem portion_all (hollow : Prop) (bs : List UInt8) : Portion hollow bs (.ok ()) bs :=
  ⟨⟨List.prefix_rfl, fun _ => rfl⟩, fun hne => absurd rfl hne⟩

theorem portion_refused (fault : Fault) (h : bs = [] → hollow) :
    Portion hollow bs (.error fault) [] :=
  ⟨part_error .., fun _ hempty => h hempty.symm⟩

theorem portion_cut (hollow : Prop) (fault : Fault) {front more : List UInt8}
    (h : front ++ more = bs) (hmore : more ≠ []) : Portion hollow bs (.error fault) front := by
  refine ⟨⟨⟨more, h⟩, fun hok => by cases hok⟩, fun _ heq => absurd ?_ hmore⟩
  rwa [heq, List.append_right_eq_self] at h

theorem Offers.mono {x : Action σ Unit} (hx : Offers hollow x bs) (h : hollow → hollow') :
    Offers hollow' x bs := by
  intro s
  refine (hx s).mono ?_
  rintro answer t ⟨front, hmoved, hpart, hall⟩
  exact ⟨front, hmoved, hpart, fun hne heq => h (hall hne heq)⟩

/-- The second operation takes what comes behind the bytes of the first. -/
theorem Offers.andThen {x y : Action σ Unit} (hx : Offers False x bs) (hy : Offers hollow y cs) :
    Offers hollow (do x; y) (bs ++ cs) := by
  intro s
  rw [ends_bind]
  refine (hx s).mono ?_
  rintro answer t ⟨front, hmoved, ⟨hfront, hdone⟩, hshort⟩
  cases answer with
  | error fault =>
    have hne : (Except.error fault : Except Fault Unit) ≠ .ok () := fun h => by cases h
    refine ⟨front, hmoved, ⟨hfront.trans (List.prefix_append ..), fun h => absurd h hne⟩, ?_⟩
    -- the bytes in front cannot be more than those of the first operation
    rintro - rfl
    have hlength := hfront.length_le
    rw [List.length_append] at hlength
    have hempty : cs = [] := List.length_eq_zero_iff.1 (by omega)
    exact (hshort hne (by rw [hempty, List.append_nil])).elim
  | ok _ =>
    obtain rfl := hdone rfl
    refine (hy t).mono ?_
    rintro answer u ⟨more, hmoved', ⟨hmore, hdone'⟩, hshort'⟩
    refine ⟨_, Meter.trans hmoved hmoved',
      ⟨(List.prefix_append_right_inj _).2 hmore, fun hok => ?_⟩, fun hne heq => ?_⟩
    · rw [hdone' hok]
    · exact hshort' hne (List.append_cancel_left heq)

theorem Offers.forEach {β : Type} {body : β → Action σ Unit} {bytes : β → List UInt8}
    (h : ∀ b, Offers False (body b) (bytes b)) (entries : List β) :
    Offers False (Action.forEach entries body) (entries.flatMap bytes) := by
  induction entries with
  | nil => exact fun s => ⟨[], Meter.refl s, portion_all ..⟩
  | cons b rest ih =>
    rw [forEach_cons, List.flatMap_cons]
    exact (h b).andThen ih

/-- A byte that is refused is not taken. -/
theorem Sends.offers (h : Sends (fun _ => True) put) (b : UInt8) : Offers False (put b) [b] := by
  intro s
  refine (h s b trivial).mono ?_
  intro answer t hmoved
  cases answer with
  | ok _ => exact ⟨[b], hmoved, portion_all ..⟩
  | error fault => exact ⟨[], hmoved, portion_refused fault (List.cons_ne_nil b [])⟩

theorem Sends.offers_writeList (h : Sends (fun _ => True) put) (bs : List UInt8) :
    Offers False (Bytewise.writeList put bs) bs := by
  have hall := Offers.forEach h.offers bs
  rwa [List.flatMap_singleton'] at hall

theorem Sends.offers_writeUnits (h : Sends (fun _ => True) put) (units : Array UInt16) :
    Offers False (Bytewise.writeUnits put units) (unitBytes units.toList) :=
  Offers.forEach (fun _ => h.offers_writeList _) units.toList

/-- A bulk write that is a drain takes what the drain takes. -/
theorem Sink.offers_drainCompletely {drain : Action (σ × Region) Unit} (hdrains : Drains drain)
    (hrest : LeavesRest drain) (bytes : Bytes) :
    Offers (bytes.list = []) (drainCompletely drain bytes) bytes.list := by
  intro s
  have hwf := Region.wellFormed_wrapReadOnly bytes
  have hwhole : (Region.wrapReadOnly bytes).remaining = bytes.list.length := rfl
  by_cases hempty : bytes.list = []
  · refine (handsOn_drainCompletely (hdrains s) bytes).mono ?_
    rintro answer t ⟨front, hmoved, hpart⟩
    exact ⟨front, hmoved, hpart, fun _ _ => hempty⟩
  have hroom : (Region.wrapReadOnly bytes).remaining ≠ 0 := by
    rwa [Ne, hwf.remaining_eq_zero, Region.list_window_wrapReadOnly]
  rw [ends_drainCompletely]
  refine ((hdrains s _ hwf).and (hrest s _ hwf hroom)).mono ?_
  rintro answer ⟨t, q⟩ ⟨⟨n, hn, hmoved, rfl⟩, hleft⟩
  rw [Region.list_window_wrapReadOnly] at hmoved
  refine ⟨_, hmoved, part_take bytes n answer, fun hne heq => absurd ?_ hne⟩
  -- a window that was emptied was not refused
  have hempties : ((Region.wrapReadOnly bytes).skip n).remaining = 0 := by
    have hlength := congrArg List.length heq
    rw [List.length_take] at hlength
    rw [Region.remaining_skip, hwhole]
    omega
  have hok : answer = .ok () := by_contra fun hne => hleft hne hempties
  rw [hok, Except.bind, if_pos hempties]

end Offers

/-- A sink of which every write is taken from the front: all of it, or a part if it fails. -/
class OrderlySink (σ : Type) [Sink σ] [Meter σ] : Prop extends MeteredSink σ where
  leavesRest : LeavesRest (Sink.drain : Action (σ × Region) Unit)
  writeU8 : Sends (fun _ => True) (Sink.writeU8 : UInt8 → Action σ Unit)
  writeBytes : ∀ bytes : Bytes,
    Offers (bytes.list = []) (Sink.writeBytes bytes : Action σ Unit) bytes.list
  writeUnits : ∀ units : Array UInt16, Offers (unitBytes units.toList = [])
    (Sink.writeUnits units : Action σ Unit) (unitBytes units.toList)

/-! ## Values -/

section Values

variable [Meter σ] [Sink σ] [OrderlySink σ]

/-- A sequence that is too long is not begun. -/
theorem Sink.offers_writeUtf16 (us : Array UInt16) :
    Offers (unitBytes us.toList = []) (writeUtf16 us : Action σ Unit)
      (sequenceBytes us.toList) := by
  rw [writeUtf16]
  by_cases hlong : maxUnits < us.size
  · rw [if_pos hlong]
    exact fun s => ⟨[], Meter.refl s, portion_refused _ fun h => by cases h⟩
  · rw [if_neg hlong]
    exact (OrderlySink.writeU8.offers_writeList _).andThen (OrderlySink.writeUnits us)

/-- The bytes of the last operation by which the value is written. -/
def Value.tail : Value → List UInt8
  | scalar kind v => kind.encode v
  | bytes data => data.list
  | units us => unitBytes us.toList
  | sequence us => unitBytes us.toList
  | text s => unitBytes (Text.Utf16.encode s)

/-- A value of any kind is taken from the front. -/
theorem Value.offers_write (v : Value) :
    Offers (v.tail = []) (v.write : Action σ Unit) v.encode := by
  cases v with
  | scalar kind v =>
    rw [write, kind.write_eq]
    exact (OrderlySink.writeU8.offers_writeList _).mono False.elim
  | bytes data => exact OrderlySink.writeBytes data
  | units us => exact OrderlySink.writeUnits us
  | sequence us => exact Sink.offers_writeUtf16 us
  | text s => exact Sink.offers_writeUtf16 (Text.Utf16.encode s).toArray

end Values

/-! ## Endpoints -/

instance : OrderlySink Empty where
  leavesRest s := s.elim
  writeU8 s := s.elim
  writeBytes _ s := s.elim
  writeUnits _ s := s.elim

instance : OrderlySink MemorySink where
  leavesRest := MemorySink.stepwise_copyFrom.leavesRest
  writeU8 := MemorySink.sends_put
  writeBytes := Sink.offers_drainCompletely MeteredSink.drain
    MemorySink.stepwise_copyFrom.leavesRest
  writeUnits units := (MemorySink.sends_put.offers_writeUnits units).mono False.elim

instance : OrderlySink GrowingSink where
  leavesRest := GrowingSink.stepwise_appendWindow.leavesRest
  writeU8 := GrowingSink.sends_push
  writeBytes bytes := by
    rintro ⟨held, _ | _⟩
    · exact ⟨bytes.list, Bytes.list_append .., portion_all ..⟩
    · exact ⟨[], Meter.refl _, portion_refused _ id⟩
  writeUnits units := (GrowingSink.sends_push.offers_writeUnits units).mono False.elim

instance : OrderlySink HashingSink where
  leavesRest := HashingSink.stepwise_absorbWindow.leavesRest
  writeU8 := HashingSink.sends_absorb
  writeBytes bytes := by
    rintro ⟨algorithm, state, count, _ | _⟩
    · exact ⟨bytes.list, ⟨rfl, rfl, rfl⟩, portion_all ..⟩
    · exact ⟨[], Meter.refl _, portion_refused _ id⟩
  writeUnits units := (HashingSink.sends_absorb.offers_writeUnits units).mono False.elim

open OutputDevice in
instance [OutputDevice δ] : OrderlySink (DeviceSink δ) where
  leavesRest := DeviceSink.leavesRest_drain
  writeU8 := DeviceSink.sends_writeBytes
  writeBytes bytes := by
    rintro ⟨d, _ | _⟩
    · obtain ⟨taken, left, stop, d', hbytes, hserved⟩ := Served.exists_stop d bytes.list
      rw [DeviceSink.ends_writeBytes_of_served hserved hbytes.symm]
      refine ⟨taken, hserved.trail, ?_⟩
      by_cases hdone : stop = .done
      · obtain rfl := hserved.left_eq_nil_iff.2 hdone
        rw [← hbytes, List.append_nil, hdone]
        exact portion_all ..
      · have hleft : left ≠ [] := fun h => hdone (hserved.left_eq_nil_iff.1 h)
        cases stop with
        | done => exact absurd rfl hdone
        | refused => exact portion_cut _ _ hbytes hleft
        | failed e => exact portion_cut _ _ hbytes hleft
    · exact ⟨[], Meter.refl _, portion_refused _ id⟩
  writeUnits units := (DeviceSink.sends_writeBytes.offers_writeUnits units).mono False.elim

/-- A sink that has no bulk operations of its own. -/
class DerivedSink (S : Type) [Sink S] : Prop extends PlainSink S where
  writeBytes_eq : (Sink.writeBytes : Bytes → Action S Unit) = Bytewise.writeBytes Sink.writeU8
  writeUnits_eq :
    (Sink.writeUnits : Array UInt16 → Action S Unit) = Bytewise.writeUnits Sink.writeU8

instance : DerivedSink BareSink := ⟨rfl, rfl⟩
instance : DerivedSink FaultySink := ⟨rfl, rfl⟩

/-- A sink from outside is metered by the answers that it gives to single bytes. -/
theorem DerivedSink.orderlySink [Sink S] [DerivedSink S] : @OrderlySink S _ (Sink.meter S) :=
  let _ := Sink.meter S
  { close := fun _ => .close (.refl _)
    flush := fun _ => .flush (.refl _)
    drain := Sink.drains_drain
    leavesRest := by
      rw [PlainSink.drain_eq]
      exact (Bytewise.stepwise_drain _).leavesRest
    writeU8 := Sink.sends_writeU8
    writeBytes := fun bytes => by
      rw [writeBytes_eq]
      exact (Sink.sends_writeU8.offers_writeList bytes.list).mono False.elim
    writeUnits := fun units => by
      rw [writeUnits_eq]
      exact (Sink.sends_writeU8.offers_writeUnits units).mono False.elim }

open OrderlySink in
instance [OutputDevice E] [Sink S] [DerivedSink S] : OrderlySink (SinkEnd E S) where
  leavesRest
    | .memory s => leavesRest s
    | .growing s => leavesRest s
    | .hashing s => leavesRest s
    | .device s => leavesRest s
    | .outside s => DerivedSink.orderlySink.leavesRest s
  writeU8
    | .memory s => writeU8 s
    | .growing s => writeU8 s
    | .hashing s => writeU8 s
    | .device s => writeU8 s
    | .outside s => DerivedSink.orderlySink.writeU8 s
  writeBytes
    | bytes, .memory s => writeBytes bytes s
    | bytes, .growing s => writeBytes bytes s
    | bytes, .hashing s => writeBytes bytes s
    | bytes, .device s => writeBytes bytes s
    | bytes, .outside s => DerivedSink.orderlySink.writeBytes bytes s
  writeUnits
    | units, .memory s => writeUnits units s
    | units, .growing s => writeUnits units s
    | units, .hashing s => writeUnits units s
    | units, .device s => writeUnits units s
    | units, .outside s => DerivedSink.orderlySink.writeUnits units s

/-! ## Layers -/

section Layers

variable [Sink σ] [Meter σ] [OrderlySink σ]

instance : OrderlySink (Quota σ) :=
  have hrest := Quota.leavesRest_clipped MeteredSink.drain OrderlySink.leavesRest
  have hwrite := Quota.sends_counted OrderlySink.writeU8
  { leavesRest := hrest
    writeU8 := hwrite
    writeBytes := Sink.offers_drainCompletely MeteredSink.drain hrest
    writeUnits := fun units => (hwrite.offers_writeUnits units).mono False.elim }

instance : OrderlySink (Traced σ) where
  leavesRest t := OrderlySink.leavesRest t.inner
  writeU8 t := OrderlySink.writeU8 t.inner
  writeBytes bytes t := OrderlySink.writeBytes bytes t.inner
  writeUnits units t := OrderlySink.writeUnits units t.inner

instance : OrderlySink (Relay σ) where
  leavesRest t := OrderlySink.leavesRest t.inner
  writeU8 t := OrderlySink.writeU8 t.inner
  writeBytes bytes t := OrderlySink.writeBytes bytes t.inner
  writeUnits units t := OrderlySink.writeUnits units t.inner

variable [ClosePolicy P σ] [QuietPolicy P σ]

instance : OrderlySink (Closing P σ) where
  leavesRest := Closing.leavesRest_whenOpenWith OrderlySink.leavesRest
  writeU8 := Closing.sends_whenOpen OrderlySink.writeU8
  writeBytes bytes c := Closing.ends_whenOpen_of ⟨[], Meter.refl c, portion_refused _ id⟩
    (OrderlySink.writeBytes bytes c.inner)
  writeUnits units c := Closing.ends_whenOpen_of ⟨[], Meter.refl c, portion_refused _ id⟩
    (OrderlySink.writeUnits units c.inner)

instance : OrderlySink (Chain P σ) :=
  have hrest := Chain.leavesRest_spread (P := P) Sink.flush MeteredSink.drain OrderlySink.leavesRest
  have hwrite := Chain.sends_pull (P := P) MeteredSink.flush OrderlySink.writeU8
  { leavesRest := hrest
    writeU8 := hwrite
    writeBytes := Sink.offers_drainCompletely MeteredSink.drain hrest
    writeUnits := fun units => (hwrite.offers_writeUnits units).mono False.elim }

open OrderlySink in
instance [Sink L] [Meter L] [OrderlySink L] : OrderlySink (Layer P L σ) where
  leavesRest
    | .endpoint s => leavesRest s
    | .quota s => leavesRest s
    | .closing s => leavesRest s
    | .chain s => leavesRest s
    | .traced s => leavesRest s
    | .relay s => leavesRest s
  writeU8
    | .endpoint s => writeU8 s
    | .quota s => writeU8 s
    | .closing s => writeU8 s
    | .chain s => writeU8 s
    | .traced s => writeU8 s
    | .relay s => writeU8 s
  writeBytes
    | bytes, .endpoint s => writeBytes bytes s
    | bytes, .quota s => writeBytes bytes s
    | bytes, .closing s => writeBytes bytes s
    | bytes, .chain s => writeBytes bytes s
    | bytes, .traced s => writeBytes bytes s
    | bytes, .relay s => writeBytes bytes s
  writeUnits
    | units, .endpoint s => writeUnits units s
    | units, .quota s => writeUnits units s
    | units, .closing s => writeUnits units s
    | units, .chain s => writeUnits units s
    | units, .traced s => writeUnits units s
    | units, .relay s => writeUnits units s

end Layers

/-! ## Trees -/

/-- A policy that does nothing to a sink but flush it and close it, so that it keeps what these
two keep. -/
class SilentPolicy (P : Type) [SinkPolicy P] : Prop where
  keeps_onClose : ∀ {σ : Type} [Sink σ] {I : σ → Prop},
    Keeps I (Closeable.close : Action σ Unit) → Keeps I (Sink.flush : Action σ Unit) →
      Keeps (fun p => I p.2) (SinkPolicy.onClose : Action (P × σ) Bool)

instance : SilentPolicy StandardPolicy := ⟨fun hclose _ => StandardPolicy.keeps_apply hclose⟩

instance [SinkPolicy P] [SilentPolicy P] [Sink σ] [Meter σ] [MeteredSink σ] : QuietPolicy P σ where
  ends_onClose policy s :=
    SilentPolicy.keeps_onClose
      (fun t ht => (MeteredSink.close t).mono fun _ _ h => Meter.trans_nil ht h)
      (fun t ht => (MeteredSink.flush t).mono fun _ _ h => Meter.trans_nil ht h)
      (policy, s) (Meter.refl s)

instance Tree.instOrderlySink [SinkPolicy P] [SilentPolicy P] [Sink L] [Meter L] [OrderlySink L] :
    (n : Nat) → OrderlySink (Tree P L n)
  | 0 => inferInstanceAs (OrderlySink Empty)
  | n + 1 =>
    have := instOrderlySink n
    inferInstanceAs (OrderlySink (Layer P L (Tree P L n)))

end ByteFlow
