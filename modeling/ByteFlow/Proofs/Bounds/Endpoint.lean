import ByteFlow.Proofs.Bounds.Stream
import ByteFlow.Proofs.Lossless.Fill
import ByteFlow.Proofs.Stepwise.Device
import ByteFlow.Proofs.Stepwise.Sink.Device

/-!
# Endpoints that stay in bounds

An array is read and written up to its end, and its position says how far that is.  A device is
asked again and again, and what it moves at one time is no more than it was asked for, so every
turn of the loop finds a window that lies inside the bytes.

## Main definitions

* `Action.Visits body s t` — a turn of a loop may begin in `t` if the first one begins in `s`.
* `SourceEnd.InBounds`, `SinkEnd.InBounds` — a position in an array is not beyond its end.
* `SourceEnd.steady`, `SinkEnd.steady` — every operation keeps it there.
* `SourceEnd.Meets`, `SinkEnd.Meets` — the hazards of a bulk operation on an endpoint.
-/

namespace ByteFlow

open ByteFlow.Action

variable {D E S δ σ ρ α : Type} {hazard : Hazard}

/-! ## Loops -/

namespace Action

/-- If the first turn of a loop begins in `s`, one of its turns may begin in `t`. -/
inductive Visits (body : Action σ (Option α)) : σ → σ → Prop
  | first (s) : Visits body s s
  | next {s t} : (body.run s).answer = .ok none → Visits body (body.run s).state t → Visits body s t

/-- What a turn keeps holds wherever a turn begins. -/
theorem Keeps.visits {I : σ → Prop} {body : Action σ (Option α)} (h : Keeps I body) {s t : σ}
    (hvisits : Visits body s t) (hs : I s) : I t := by
  induction hvisits with
  | first s => exact hs
  | next _ _ ih => exact ih (h _ hs)

theorem keeps_true (x : Action σ α) : Keeps (fun _ => True) x := fun _ _ => trivial

/-- Where there is nothing to keep, it is the window that counts. -/
theorem Steady.of_onward {x : Action (σ × Region) α}
    (h : ∀ s r, r.WellFormed → x.Ends (s, r) fun _ p => r.Onward p.2) :
    Steady (fun _ => True) x :=
  .of_ends fun s r _ hr => (h s r hr).mono fun _ _ honward => ⟨trivial, honward⟩

end Action

/-! ## Arrays -/

namespace MemorySource

/-- A read does not pass the end of the array. -/
theorem keeps_next : Keeps (fun s => s.position ≤ s.data.size) next := by
  intro s hs
  cases hclosed : s.closed with
  | true =>
    rcases s with ⟨data, position, closed⟩
    obtain rfl : closed = true := hclosed
    exact hs
  | false =>
    rw [ends_next hclosed]
    cases hrest : s.data.list.drop s.position with
    | nil => exact hs
    | cons b rest =>
      have hlength := congrArg List.length hrest
      rw [List.length_drop, Bytes.length_list, List.length_cons] at hlength
      dsimp only
      omega

theorem steady_copyInto : Action.Steady (fun s => s.position ≤ s.data.size) copyInto := by
  refine .of_ends fun s r hs hr => ?_
  cases hclosed : s.closed with
  | true =>
    rw [ends_copyInto_of_closed hclosed]
    exact ⟨hs, .refl hr⟩
  | false =>
    cases hreadOnly : r.readOnly with
    | true =>
      rw [ends_copyInto_of_readOnly hclosed hreadOnly]
      exact ⟨hs, .refl hr⟩
    | false =>
      have hwritable : r.Writable := ⟨hr, hreadOnly⟩
      rw [ends_copyInto hclosed hreadOnly]
      refine ⟨?_, hwritable.onward_receive (List.length_take_le ..)⟩
      dsimp only
      omega

theorem steady : Source.Steady fun s : MemorySource => s.position ≤ s.data.size :=
  .of_readU8 (fun _ hs => hs) keeps_next steady_copyInto rfl fun _ => rfl

end MemorySource

namespace MemorySink

/-- What is written does not pass the end of the array. -/
theorem position_le_receive {s : MemorySink} {bs : List UInt8} (hs : s.position ≤ s.data.size)
    (hbs : bs.length ≤ s.available) : (s.receive bs).position ≤ (s.receive bs).data.size := by
  rw [size_receive hbs, position_receive]
  rw [available] at hbs
  omega

theorem keeps_put (v : UInt8) : Keeps (fun s => s.position ≤ s.data.size) (put v) := by
  intro s hs
  cases hclosed : s.closed with
  | true =>
    rcases s with ⟨data, position, closed⟩
    obtain rfl : closed = true := hclosed
    exact hs
  | false =>
    rw [ends_put hclosed]
    by_cases hfull : s.available = 0
    · rwa [if_pos hfull]
    · rw [if_neg hfull]
      exact position_le_receive hs (Nat.pos_of_ne_zero hfull)

theorem steady_copyFrom : Action.Steady (fun s => s.position ≤ s.data.size) copyFrom := by
  refine .of_ends fun s r hs hr => ?_
  cases hclosed : s.closed with
  | true =>
    rw [ends_copyFrom_of_closed hclosed]
    exact ⟨hs, .refl hr⟩
  | false =>
    rw [ends_copyFrom hclosed hr]
    exact ⟨position_le_receive hs (List.length_take_le ..), hr.onward_skip (Nat.min_le_right ..)⟩

theorem steady : Sink.Steady fun s : MemorySink => s.position ≤ s.data.size :=
  .of_writeU8 (fun _ hs => hs) keeps_put (fun _ hs => hs) steady_copyFrom (fun _ => rfl)
    fun _ => rfl

end MemorySink

/-! ## Sinks without an end -/

theorem GrowingSink.steady : Sink.Steady fun _ : GrowingSink => True where
  close := keeps_true _
  writeU8 _ := keeps_true _
  flush := keeps_true _
  writeBytes _ := keeps_true _
  writeUnits _ := keeps_true _
  drain := .of_onward fun s r hr => by
    change appendWindow.Ends (s, r) _
    rw [ends_appendWindow]
    by_cases hclosed : s.closed = true
    · rw [if_pos hclosed]
      exact .refl hr
    · rw [if_neg hclosed]
      exact hr.onward_skip (Nat.le_refl _)

theorem HashingSink.steady : Sink.Steady fun _ : HashingSink => True where
  close := keeps_true _
  writeU8 _ := keeps_true _
  flush := keeps_true _
  writeBytes _ := keeps_true _
  writeUnits _ := keeps_true _
  drain := .of_onward fun s r hr => by
    change absorbWindow.Ends (s, r) _
    rw [ends_absorbWindow]
    by_cases hclosed : s.closed = true
    · rw [if_pos hclosed]
      exact .refl hr
    · rw [if_neg hclosed]
      exact hr.onward_skip (Nat.le_refl _)

/-! ## Devices -/

namespace InputDevice

variable [InputDevice δ]

/-- One turn of a fill. -/
def fillTurn : Action (δ × Region) (Option Unit) :=
  readTurn (pure (some ())) fun e =>
    if e.kind = .unexpectedEof then pure (some ()) else fail (.ofIo e)

/-- A fill takes turns. -/
theorem readSome_eq : (readSome : Action (δ × Region) Unit) = (do
    let turns ← gets fun (device, region) => region.remaining + patience device
    repeatUntil (turns + 1) fillTurn (pure ())) := rfl

theorem steady_readOnce : Steady (fun _ => True) (readOnce : Action (δ × Region) _) := by
  refine .of_onward fun d r hr => ?_
  cases hreadOnly : r.readOnly with
  | true =>
    rw [readOnce, ends_bind, ends_onSecond, Region.ends_requireWritable_of_readOnly hreadOnly]
    exact .refl hr
  | false =>
    have hwritable : r.Writable := ⟨hr, hreadOnly⟩
    rw [ends_readOnce d hwritable]
    rcases hread : read r.remaining d with ⟨e | given, d'⟩
    · exact .refl hr
    · exact hwritable.onward_receive (read_size_le hread)

theorem steady_readTurn {atEnd : Action (δ × Region) (Option Unit)}
    {onError : IoError → Action (δ × Region) (Option Unit)} (hend : Steady (fun _ => True) atEnd)
    (herror : ∀ e, Steady (fun _ => True) (onError e)) :
    Steady (fun _ => True) (readTurn atEnd onError) :=
  fun r hr => keeps_deviceTurn (steady_readOnce r hr) (hend r hr) fun e => herror e r hr

theorem steady_fillTurn : Steady (fun _ => True) (fillTurn : Action (δ × Region) _) := by
  refine steady_readTurn (fun _ _ => .pure _) fun e _ _ => ?_
  by_cases hkind : e.kind = .unexpectedEof
  · simp only [hkind, if_true]
    exact .pure _
  · simp only [hkind, if_false]
    exact .fail _

theorem steady_readSome : Steady (fun _ => True) (readSome : Action (δ × Region) Unit) := by
  intro r hr
  rw [readSome_eq]
  exact (Keeps.gets _).bind fun _ => .repeatUntil (steady_fillTurn r hr) (.pure ()) _

theorem steady_readAll : Steady (fun _ => True) (readAll : Action (δ × Region) Unit) := by
  intro r hr
  rw [readAll, readLoop_eq]
  exact (Keeps.gets _).bind fun _ =>
    .repeatUntil (steady_readTurn (fun _ _ => .fail _) (fun _ _ _ => .fail _) r hr) (.pure ()) _

/-- The hazards of a fill: those of the window at every turn, and moving it on by what came. -/
inductive Meets : δ × Region → Hazard → Prop
  | window {p d r hazard} : Visits fillTurn p (d, r) → r.Meets hazard → Meets p hazard
  | advance {p d r given d'} : Visits fillTurn p (d, r) → read r.remaining d = (.ok given, d') →
    Meets p (.subtract r.remaining given.size)

theorem Meets.averted {d : δ} {r : Region} (hmeets : Meets (d, r) hazard) (hr : r.WellFormed) :
    hazard.Averted := by
  have hvisited {p : δ × Region} (hvisits : Visits fillTurn (d, r) p) : p.2.WellFormed :=
    ((steady_fillTurn r hr).visits hvisits ⟨trivial, .refl hr⟩).2.wellFormed hr
  cases hmeets with
  | window hvisits hmeets => exact (hvisited hvisits).averted hmeets
  | advance hvisits hread => exact read_size_le hread

end InputDevice

namespace OutputDevice

variable [OutputDevice δ]

/-- One turn of a drain. -/
def drainTurn : Action (δ × Region) (Option Unit) :=
  writeTurn (pure (some ())) fun e =>
    if e.kind = .writeZero then pure (some ()) else fail (.ofIo e)

/-- A drain takes turns. -/
theorem writeSome_eq : (writeSome : Action (δ × Region) Unit) = (do
    let turns ← gets fun (device, region) => region.remaining + patience device
    repeatUntil (turns + 1) drainTurn (pure ())) := rfl

/-- The device takes no more than it was offered. -/
theorem write_le_remaining {d d' : δ} {r : Region} {n : Nat} (hr : r.WellFormed)
    (hwrite : write r.window d = (.ok n, d')) : n ≤ r.remaining := by
  rw [← hr.length_window]
  exact write_le hwrite

theorem steady_writeOnce : Steady (fun _ => True) (writeOnce : Action (δ × Region) _) := by
  refine .of_onward fun d r hr => ?_
  rw [ends_writeOnce]
  rcases hwrite : write r.window d with ⟨e | taken, d'⟩
  · exact .refl hr
  · exact hr.onward_skip (write_le_remaining hr hwrite)

theorem steady_writeTurn {refused : Action (δ × Region) (Option Unit)}
    {onError : IoError → Action (δ × Region) (Option Unit)}
    (hrefused : Steady (fun _ => True) refused) (herror : ∀ e, Steady (fun _ => True) (onError e)) :
    Steady (fun _ => True) (writeTurn refused onError) :=
  fun r hr => keeps_deviceTurn (steady_writeOnce r hr) (hrefused r hr) fun e => herror e r hr

theorem steady_drainTurn : Steady (fun _ => True) (drainTurn : Action (δ × Region) _) := by
  refine steady_writeTurn (fun _ _ => .pure _) fun e _ _ => ?_
  by_cases hkind : e.kind = .writeZero
  · simp only [hkind, if_true]
    exact .pure _
  · simp only [hkind, if_false]
    exact .fail _

theorem steady_writeSome : Steady (fun _ => True) (writeSome : Action (δ × Region) Unit) := by
  intro r hr
  rw [writeSome_eq]
  exact (Keeps.gets _).bind fun _ => .repeatUntil (steady_drainTurn r hr) (.pure ()) _

/-- The hazards of a drain: those of the window at every turn, and moving it on by what was
taken. -/
inductive Meets : δ × Region → Hazard → Prop
  | window {p d r hazard} : Visits drainTurn p (d, r) → r.Meets hazard → Meets p hazard
  | advance {p d r n d'} : Visits drainTurn p (d, r) → write r.window d = (.ok n, d') →
    Meets p (.subtract r.remaining n)

theorem Meets.averted {d : δ} {r : Region} (hmeets : Meets (d, r) hazard) (hr : r.WellFormed) :
    hazard.Averted := by
  have hvisited {p : δ × Region} (hvisits : Visits drainTurn (d, r) p) : p.2.WellFormed :=
    ((steady_drainTurn r hr).visits hvisits ⟨trivial, .refl hr⟩).2.wellFormed hr
  cases hmeets with
  | window hvisits hmeets => exact (hvisited hvisits).averted hmeets
  | advance hvisits hwrite => exact write_le_remaining (hvisited hvisits) hwrite

end OutputDevice

theorem DeviceSource.steady_whenOpen {x : Action (δ × Region) α}
    (hx : Steady (fun _ => True) x) : Steady (fun _ => True) (whenOpen x) := by
  refine .of_onward fun s r hr => ?_
  rcases s with ⟨device, _ | _⟩
  · exact (hx.ends trivial hr).mono fun _ _ hp => hp.2
  · exact .refl hr

theorem DeviceSource.steady [InputDevice δ] : Source.Steady fun _ : DeviceSource δ => True where
  close := keeps_true _
  readU8 := keeps_true _
  readUnits _ := keeps_true _
  readBytes := steady_whenOpen InputDevice.steady_readAll
  fill := steady_whenOpen InputDevice.steady_readSome

theorem DeviceSink.steady [OutputDevice δ] : Sink.Steady fun _ : DeviceSink δ => True where
  close := keeps_true _
  writeU8 _ := keeps_true _
  flush := keeps_true _
  writeBytes _ := keeps_true _
  writeUnits _ := keeps_true _
  drain := .of_onward fun s r hr => by
    rcases s with ⟨device, _ | _⟩
    · have hdrain := OutputDevice.steady_writeSome.ends (s := device) trivial hr
      exact hdrain.mono fun _ _ hp => hp.2
    · exact .refl hr

/-! ## Any endpoint -/

namespace SourceEnd

/-- A position in an array is not beyond its end. -/
def InBounds : SourceEnd D S → Prop
  | .memory s => s.position ≤ s.data.size
  | .device _ => True
  | .outside _ => True

theorem steady [InputDevice D] : Source.Steady (InBounds : SourceEnd D Empty → Prop) := by
  have hm := MemorySource.steady
  have hd := DeviceSource.steady (δ := D)
  exact {
    close := ends_act hm.close hd.close nofun
    readU8 := ends_act hm.readU8 hd.readU8 nofun
    readUnits := fun n => ends_actWith (hm.readUnits n) (hd.readUnits n) nofun
    readBytes := fun r hr => ends_actWith (hm.readBytes r hr) (hd.readBytes r hr) nofun
    fill := fun r hr => ends_actWith (hm.fill r hr) (hd.fill r hr) nofun }

/-- The hazards of filling a region from the endpoint. -/
inductive Meets [InputDevice D] : SourceEnd D S × Region → Hazard → Prop
  | memory {s r hazard} : s.Meets hazard → Meets (.memory s, r) hazard
  | device {d r hazard} : InputDevice.Meets (d, r) hazard → Meets (.device ⟨d, false⟩, r) hazard

theorem Meets.averted [InputDevice D] {e : SourceEnd D S} {r : Region}
    (hmeets : Meets (e, r) hazard) (he : e.InBounds) (hr : r.WellFormed) : hazard.Averted := by
  cases hmeets with
  | memory hmeets => exact hmeets.averted he
  | device hmeets => exact hmeets.averted hr

end SourceEnd

namespace SinkEnd

/-- A position in an array is not beyond its end. -/
def InBounds : SinkEnd D S → Prop
  | .memory s => s.position ≤ s.data.size
  | .growing _ => True
  | .hashing _ => True
  | .device _ => True
  | .outside _ => True

theorem steady [OutputDevice E] : Sink.Steady (InBounds : SinkEnd E Empty → Prop) := by
  have hm := MemorySink.steady
  have hg := GrowingSink.steady
  have hh := HashingSink.steady
  have hd := DeviceSink.steady (δ := E)
  exact {
    close := ends_act hm.close hg.close hh.close hd.close nofun
    writeU8 := fun v => ends_act (hm.writeU8 v) (hg.writeU8 v) (hh.writeU8 v) (hd.writeU8 v) nofun
    flush := ends_act hm.flush hg.flush hh.flush hd.flush nofun
    writeBytes := fun bs => ends_act (hm.writeBytes bs) (hg.writeBytes bs) (hh.writeBytes bs)
      (hd.writeBytes bs) nofun
    writeUnits := fun us => ends_act (hm.writeUnits us) (hg.writeUnits us) (hh.writeUnits us)
      (hd.writeUnits us) nofun
    drain := fun r hr => ends_actWith (hm.drain r hr) (hg.drain r hr) (hh.drain r hr)
      (hd.drain r hr) nofun }

/-- The hazards of draining a region into the endpoint. -/
inductive Meets [OutputDevice E] : SinkEnd E S × Region → Hazard → Prop
  | memory {s r hazard} : s.Meets hazard → Meets (.memory s, r) hazard
  | advance {s r} : Meets (.memory s, r) (.subtract r.remaining (min s.available r.remaining))
  | growing {s r} : Meets (.growing s, r) (.subtract r.remaining r.remaining)
  | hashing {s r} : Meets (.hashing s, r) (.subtract r.remaining r.remaining)
  | device {d r hazard} : OutputDevice.Meets (d, r) hazard → Meets (.device ⟨d, false⟩, r) hazard

theorem Meets.averted [OutputDevice E] {e : SinkEnd E S} {r : Region} (hmeets : Meets (e, r) hazard)
    (he : e.InBounds) (hr : r.WellFormed) : hazard.Averted := by
  cases hmeets with
  | memory hmeets => exact hmeets.averted he
  | advance => exact Nat.min_le_right ..
  | growing => exact Nat.le_refl _
  | hashing => exact Nat.le_refl _
  | device hmeets => exact hmeets.averted hr

end SinkEnd

end ByteFlow
