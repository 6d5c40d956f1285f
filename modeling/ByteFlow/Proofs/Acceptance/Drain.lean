import ByteFlow.Proofs.Meter.Endpoint
import ByteFlow.Proofs.Stepwise.Sink.Basic

/-!
# Drains that fail

A drain may stop early without a fault, when there is no more room.  When it does fail, it fails at
a byte that was not taken, and this byte is still in the window.  So nobody can take all bytes of a
window and refuse them.

## Main definitions

* `LeavesRest drain` — the drain does not fail and empty the window as well.
* `Quota.leavesRest_clipped`, `Chain.leavesRest_spread`, `Closing.leavesRest_whenOpenWith` — neither
  do the drains of the layers.
-/

namespace ByteFlow

open ByteFlow.Action

variable {P δ σ : Type} {drain : Action (σ × Region) Unit}

/-- A drain that fails has left something in a window that was not empty. -/
def LeavesRest (drain : Action (σ × Region) Unit) : Prop :=
  ∀ (s : σ) (r : Region), r.WellFormed → r.remaining ≠ 0 → drain.Ends (s, r) fun answer p =>
    answer ≠ .ok () → p.2.remaining ≠ 0

/-! ## Endpoints -/

/-- A drain that goes byte by byte fails at the byte in front. -/
theorem Sink.Stepwise.leavesRest {put : UInt8 → Action σ Unit} (h : Stepwise (.ok ()) put drain) :
    LeavesRest drain := by
  intro s r hr hroom
  obtain ⟨b, rest, hshows⟩ := hr.shows hroom
  induction rest generalizing s r b with
  | nil =>
    rw [h.ends_step s hshows]
    refine .of_forall fun answer t => ?_
    cases answer with
    | error fault => exact fun _ => hroom
    | ok _ => exact fun hne => absurd rfl hne
  | cons c rest ih =>
    rw [h.ends_step s hshows]
    refine .of_forall fun answer t => ?_
    cases answer with
    | error fault => exact fun _ => hroom
    | ok _ =>
      have hnext := hshows.next
      have hmore : (r.skip 1).remaining ≠ 0 := by
        rw [hnext.remaining_eq]
        exact Nat.succ_ne_zero _
      rw [if_neg (List.cons_ne_nil c rest)]
      exact ih t _ hnext.toWellFormed hmore c hnext

namespace OutputDevice

variable [OutputDevice δ]

/-- An error of the device comes while there is still something to be written. -/
theorem ends_writeSome_rest (d : δ) (r : Region) :
    writeSome.Ends (d, r) fun answer p => answer ≠ .ok () → p.2.remaining ≠ 0 := by
  rw [writeSome, writeLoop, ends_gets_bind]
  dsimp only
  generalize r.remaining + patience d + 1 = turns
  induction turns generalizing d r with
  | zero => exact fun hne => absurd rfl hne
  | succ turns ih =>
    rw [ends_repeatUntil_succ, ends_gets_bind]
    by_cases hmore : r.hasRemaining = true
    · rw [if_pos hmore, ends_bind, ends_writeOnce]
      have hleft : r.remaining ≠ 0 := (Region.hasRemaining_iff r).1 hmore
      rcases write r.window d with ⟨e | _ | _, d'⟩
      · by_cases hkind : e.kind = .interrupted
        · simp only [hkind, if_true]
          exact ih d' r
        · simp only [hkind, if_false]
          split
          · exact fun hne => absurd rfl hne
          · exact fun _ => hleft
      · exact fun hne => absurd rfl hne
      · exact ih d' _
    · rw [if_neg hmore]
      exact fun hne => absurd rfl hne

end OutputDevice

theorem DeviceSink.leavesRest_drain [OutputDevice δ] :
    LeavesRest (Sink.drain : Action (DeviceSink δ × Region) Unit) := by
  rintro ⟨d, _ | _⟩ r _ hroom
  · exact OutputDevice.ends_writeSome_rest d r
  · exact fun _ => hroom

/-! ## Layers -/

namespace Quota

theorem leavesRest_clipped [Meter σ] (hdrains : Drains drain) (h : LeavesRest drain) :
    LeavesRest (clipped drain) := by
  rintro ⟨s, n⟩ r hr hroom
  rw [ends_clipped]
  by_cases hn : n = 0
  · rw [if_pos hn]
    exact fun hne => absurd rfl hne
  rw [if_neg hn]
  have hnarrowed : (r.narrowed n).remaining ≠ 0 := by
    rw [Region.remaining_narrowed hr]
    omega
  refine ((hdrains s _ (hr.narrowed n)).and (h s _ (hr.narrowed n) hnarrowed)).mono ?_
  rintro answer ⟨t, q⟩ ⟨⟨k, hk, -, rfl⟩, hrest⟩ hne
  have hleft := hrest hne
  rw [Region.remaining_narrowed hr] at hk
  rw [Region.remaining_skip, Region.remaining_narrowed hr] at hleft
  rw [Region.setLimit_skip_narrowed hr hk, Region.remaining_skip]
  omega

end Quota

/-- A wrapper that is closed leaves everything. -/
theorem Closing.leavesRest_whenOpenWith (h : LeavesRest drain) :
    LeavesRest (whenOpenWith drain : Action (Closing P σ × Region) Unit) := by
  intro c r hr hroom
  cases hclosed : c.closed with
  | true => exact (ends_whenOpenWith_of_closed hclosed ..).2 fun _ => hroom
  | false => exact (ends_whenOpenWith hclosed ..).2 (h c.inner r hr hroom)

/-- A chain fails at a member that fails, or when it leaves one with something to be written. -/
theorem Chain.leavesRest_spread [ClosePolicy P σ] [Meter σ] (settle : Action σ Unit)
    (hdrains : Drains drain) (h : LeavesRest drain) :
    LeavesRest (spread settle drain : Action (Chain P σ × Region) Unit) := by
  intro c r hr _
  refine ends_spread_of_stops (fun _ hne => absurd rfl hne) (fun m q hq hroom => ?_)
    (fun _ hroom _ => hroom) c hr
  refine ((hdrains m q hq).and (h m q hq hroom)).mono ?_
  rintro answer p ⟨hdrained, hrest⟩
  refine ⟨hdrained.wellFormed hq, fun fault hfault d hne => hrest ?_⟩
  rwa [hfault]

end ByteFlow
