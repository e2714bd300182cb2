import Miniss.Timer.Wheel
import Miniss.Data.Buckets
import Miniss.Data.Sweep

/-!
# What the operations of the timer wheel do

Each operation of `TimerWheel`, said once, in terms of the slots (`Miniss.Data.Buckets`)
and of the sweep round the wheel (`Miniss.Data.Sweep`):

* `schedule` adds an entry at the back of the slot of its instant
  (`flatten_schedule_perm`);
* `cancel` removes the first entry with the id, scanning the slots in order, if
  there is one (`flatten_cancel`, `cancel_snd`);
* `expire` is a sweep from the current slot (`expire_eq`): up to the slot of
  `now` — `dist` slots — while `now` lies within a rotation of the start of the
  wheel, and `num_slots + 1` slots, the whole wheel, afterwards (`visits`). It
  pops the entries of the slots it visits (`sweepSlots_eq`) and leaves the wheel
  on the slot after the last one it visited.

Every operation keeps a wheel `Valid`.
-/

namespace Miniss.TimerWheel

variable {W : Type*} {w : TimerWheel W}

/-! ## Small steps -/

@[simp] theorem drainCurrent_fst : w.drainCurrent.1 = w.slots.getD w.currentSlot [] := rfl

@[simp] theorem drainCurrent_snd : w.drainCurrent.2 = { w with slots := w.slots.set w.currentSlot [] } :=
  rfl

@[simp] theorem advance_currentSlot : w.advance.currentSlot = (w.currentSlot + 1) % w.numSlots := rfl

@[simp] theorem advance_slots : w.advance.slots = w.slots := rfl

@[simp] theorem advance_numSlots : w.advance.numSlots = w.numSlots := rfl

theorem sweepSlots_succ (k : Nat) :
    w.sweepSlots (k + 1) = (w.drainCurrent.1 ++ (w.drainCurrent.2.advance.sweepSlots k).1,
      (w.drainCurrent.2.advance.sweepSlots k).2) := rfl

/-- `k` rounds of emptying the current slot and moving on pop the entries of the
    `k` slots of the sweep from the current slot, and leave the wheel `k` slots on. -/
theorem sweepSlots_eq (hc : w.currentSlot < w.numSlots) (k : Nat) :
    w.sweepSlots k = ((drainEach (sweep w.numSlots w.currentSlot k) w.slots).1,
      { w with slots := (drainEach (sweep w.numSlots w.currentSlot k) w.slots).2,
               currentSlot := (w.currentSlot + k) % w.numSlots }) := by
  induction k generalizing w with
  | zero => simp [sweepSlots, Nat.mod_eq_of_lt hc]
  | succ k ih =>
    have hc' : (w.currentSlot + 1) % w.numSlots < w.numSlots := Nat.mod_lt _ (by omega)
    have hk : ((w.currentSlot + 1) % w.numSlots + k) % w.numSlots =
        (w.currentSlot + (k + 1)) % w.numSlots := by
      rw [Nat.mod_add_mod, Nat.add_right_comm, Nat.add_assoc]
    rw [sweepSlots_succ, ih (by simpa using hc'), sweep_succ, drainEach_cons]
    simp only [drainCurrent_fst, drainCurrent_snd, advance, hk]

theorem sweepSlots_snd_numSlots (k : Nat) : (w.sweepSlots k).2.numSlots = w.numSlots := by
  induction k generalizing w with
  | zero => rfl
  | succ k ih => rw [sweepSlots_succ, ih]; rfl

theorem sweepSlots_calculateSlot (k : Nat) :
    (w.sweepSlots k).2.calculateSlot = w.calculateSlot := by
  induction k generalizing w with
  | zero => rfl
  | succ k ih => rw [sweepSlots_succ, ih]; rfl

/-- The entries popped by a sweep and those left are the entries before. -/
theorem sweepSlots_perm (hc : w.currentSlot < w.numSlots) (k : Nat) :
    ((w.sweepSlots k).1 ++ (w.sweepSlots k).2.slots.flatten).Perm w.slots.flatten := by
  rw [sweepSlots_eq hc]
  exact drainEach_perm

/-- A sweep empties the slots it visits, and leaves the others alone. -/
theorem getD_sweepSlots (hc : w.currentSlot < w.numSlots) (k j : Nat) :
    (w.sweepSlots k).2.slots.getD j [] =
      if j ∈ sweep w.numSlots w.currentSlot k then [] else w.slots.getD j [] := by
  rw [sweepSlots_eq hc]
  exact getD_drainEach

/-! ## Valid wheels -/

namespace Valid

theorem new {n r : Nat} (hn : 0 < n) (hr : 0 < r) (t : Instant) :
    (TimerWheel.new n r t : TimerWheel W).Valid :=
  ⟨hn, hr, List.length_replicate, hn⟩

variable (hw : w.Valid)
include hw

theorem calculateSlot_lt (t : Instant) : w.calculateSlot t < w.numSlots :=
  Nat.mod_lt _ hw.numSlots_pos

theorem schedule (t : Instant) (waker : W) (counter : Nat) :
    (w.schedule t waker counter).1.Valid :=
  { hw with length_slots := by simp [TimerWheel.schedule, hw.length_slots] }

theorem advance_drainCurrent : w.drainCurrent.2.advance.Valid :=
  { hw with
    length_slots := by simp [hw.length_slots]
    currentSlot_lt := Nat.mod_lt _ hw.numSlots_pos }

theorem sweepSlots (k : Nat) : (w.sweepSlots k).2.Valid := by
  induction k generalizing w with
  | zero => exact hw
  | succ k ih => rw [sweepSlots_succ]; exact ih hw.advance_drainCurrent

end Valid

/-! ## schedule -/

@[simp] theorem schedule_snd (t : Instant) (waker : W) (counter : Nat) :
    (w.schedule t waker counter).2 = (⟨counter⟩, counter + 1) := rfl

@[simp] theorem schedule_currentSlot (t : Instant) (waker : W) (counter : Nat) :
    (w.schedule t waker counter).1.currentSlot = w.currentSlot := rfl

@[simp] theorem schedule_numSlots (t : Instant) (waker : W) (counter : Nat) :
    (w.schedule t waker counter).1.numSlots = w.numSlots := rfl

@[simp] theorem schedule_startTime (t : Instant) (waker : W) (counter : Nat) :
    (w.schedule t waker counter).1.startTime = w.startTime := rfl

@[simp] theorem schedule_resolutionMs (t : Instant) (waker : W) (counter : Nat) :
    (w.schedule t waker counter).1.resolutionMs = w.resolutionMs := rfl

/-- `schedule` puts the new entry at the back of the slot of its instant. -/
theorem getD_schedule (hw : w.Valid) (t : Instant) (waker : W) (counter j : Nat) :
    (w.schedule t waker counter).1.slots.getD j [] =
      if w.calculateSlot t = j then w.slots.getD j [] ++ [⟨⟨counter⟩, waker⟩] else w.slots.getD j [] := by
  simp only [TimerWheel.schedule, TimerId.new, getD_modify_append, hw.length_slots,
    hw.calculateSlot_lt t, and_true]

theorem flatten_schedule_perm (hw : w.Valid) (t : Instant) (waker : W) (counter : Nat) :
    (w.schedule t waker counter).1.slots.flatten.Perm (w.slots.flatten ++ [⟨⟨counter⟩, waker⟩]) :=
  flatten_modify_append_perm (by rw [hw.length_slots]; exact hw.calculateSlot_lt t)

/-! ## cancel -/

/-- The test `entry.id == id` of `cancel`. -/
def hasId (id : TimerId) : Entry W → Bool := fun e => e.id == id

theorem cancelSlots_length {id : TimerId} :
    ∀ {b b' : List (List (Entry W))}, cancelSlots id b = some b' → b'.length = b.length
  | [], _, h => by simp [cancelSlots] at h
  | slot :: slots, b', h => by
    simp only [cancelSlots] at h
    split at h
    · cases h; rfl
    · obtain ⟨b'', h'', rfl⟩ := Option.map_eq_some_iff.1 h
      simp [cancelSlots_length h'']

/-- What `cancel` leaves is the entries with the first one carrying the id removed. -/
theorem cancelSlots_flatten {id : TimerId} :
    ∀ {b b' : List (List (Entry W))}, cancelSlots id b = some b' →
      b'.flatten = b.flatten.eraseP (hasId id)
  | [], _, h => by simp [cancelSlots] at h
  | slot :: slots, b', h => by
    simp only [cancelSlots] at h
    split at h
    · rename_i pos hpos
      cases h
      obtain ⟨hlt, hp, -⟩ := List.findIdx?_eq_some_iff_getElem.1 hpos
      have hany : slot.any (hasId id) = true := List.any_eq_true.2 ⟨slot[pos], List.getElem_mem hlt, hp⟩
      rw [List.flatten_cons, List.flatten_cons, List.eraseP_append, if_pos hany,
        List.eraseP_eq_eraseIdx]
      rw [show hasId id = fun e : Entry W => e.id == id from rfl, hpos]
    · rename_i hnone
      obtain ⟨b'', h'', rfl⟩ := Option.map_eq_some_iff.1 h
      have hany : slot.any (hasId id) = false := by
        simpa [hasId, List.findIdx?_eq_none_iff] using hnone
      rw [List.flatten_cons, List.flatten_cons, List.eraseP_append, hany, cancelSlots_flatten h'']
      rfl

/-- `cancel` finds nothing exactly when no entry carries the id. -/
theorem cancelSlots_eq_none {id : TimerId} :
    ∀ {b : List (List (Entry W))}, cancelSlots id b = none ↔ ∀ e ∈ b.flatten, e.id ≠ id
  | [] => by simp [cancelSlots]
  | slot :: slots => by
    simp only [cancelSlots]
    split
    · rename_i pos hpos
      obtain ⟨hlt, hp, -⟩ := List.findIdx?_eq_some_iff_getElem.1 hpos
      simp only [reduceCtorEq, false_iff, not_forall, not_not]
      exact ⟨slot[pos], List.mem_flatten.2 ⟨slot, List.mem_cons_self, List.getElem_mem hlt⟩,
        by simpa using hp⟩
    · rename_i hnone
      rw [Option.map_eq_none_iff, cancelSlots_eq_none, List.flatten_cons]
      simp only [List.findIdx?_eq_none_iff, beq_eq_false_iff_ne] at hnone
      simp only [List.mem_append]
      exact ⟨fun h e he => he.elim (hnone e) (h e), fun h e he => h e (.inr he)⟩

@[simp] theorem cancel_snd_eq_true {id : TimerId} :
    (w.cancel id).2 = true ↔ ∃ e ∈ w.slots.flatten, e.id = id := by
  unfold cancel
  split
  · rename_i b' h
    refine iff_of_true rfl ?_
    by_contra hne
    push Not at hne
    rw [cancelSlots_eq_none.2 hne] at h
    cases h
  · rename_i h
    have := cancelSlots_eq_none.1 h
    simp only [Bool.false_eq_true, false_iff, not_exists, not_and]
    exact this

theorem flatten_cancel (id : TimerId) :
    (w.cancel id).1.slots.flatten = w.slots.flatten.eraseP (hasId id) := by
  unfold cancel
  split
  · rename_i b' h
    exact cancelSlots_flatten h
  · rename_i h
    exact (List.eraseP_eq_self_iff.2 fun e he => by
      simpa [hasId] using cancelSlots_eq_none.1 h e he).symm

/-- The ids left by `cancel` are those before, with the id removed once. -/
theorem map_id_flatten_cancel (id : TimerId) :
    (w.cancel id).1.slots.flatten.map (·.id) = (w.slots.flatten.map (·.id)).erase id := by
  rw [flatten_cancel, List.erase_eq_eraseP', List.eraseP_map]
  rfl

theorem cancelSlots_getD_subset {id : TimerId} :
    ∀ {b b' : List (List (Entry W))}, cancelSlots id b = some b' → ∀ j, b'.getD j [] ⊆ b.getD j []
  | [], _, h, _ => by simp [cancelSlots] at h
  | slot :: slots, b', h, j => by
    simp only [cancelSlots] at h
    split at h
    · cases h
      cases j with
      | zero => exact (List.eraseIdx_sublist _ _).subset
      | succ j => exact List.Subset.refl _
    · obtain ⟨b'', h'', rfl⟩ := Option.map_eq_some_iff.1 h
      cases j with
      | zero => exact List.Subset.refl _
      | succ j => exact cancelSlots_getD_subset h'' j

/-- `cancel` only ever takes entries out of a slot. -/
theorem getD_cancel_subset (id : TimerId) (j : Nat) :
    (w.cancel id).1.slots.getD j [] ⊆ w.slots.getD j [] := by
  unfold cancel
  split
  · rename_i b' h
    exact cancelSlots_getD_subset h j
  · exact List.Subset.refl _

theorem cancel_fst_of_snd_eq_false {id : TimerId} (h : (w.cancel id).2 = false) :
    (w.cancel id).1 = w := by
  unfold cancel at h ⊢
  split at h
  · cases h
  · rfl

theorem cancel_calculateSlot (id : TimerId) : (w.cancel id).1.calculateSlot = w.calculateSlot := by
  unfold cancel; split <;> rfl

/-- When at most one entry carries the id, `cancel` takes out that one entry, and
    nothing else, from every slot. -/
theorem cancelSlots_eq_map {id : TimerId} :
    ∀ {b b' : List (List (Entry W))}, (b.flatten.map (·.id)).count id ≤ 1 →
      cancelSlots id b = some b' → b' = b.map (·.eraseP (hasId id))
  | [], _, _, h => by simp [cancelSlots] at h
  | slot :: slots, b', hc, h => by
    simp only [cancelSlots] at h
    rw [List.flatten_cons, List.map_append, List.count_append] at hc
    split at h
    · rename_i pos hpos
      cases h
      obtain ⟨hlt, hp, -⟩ := List.findIdx?_eq_some_iff_getElem.1 hpos
      -- The entry found is the only one with the id: the other slots hold none.
      have hin : 0 < (slot.map (·.id)).count id :=
        List.count_pos_iff.2 (List.mem_map.2 ⟨slot[pos], List.getElem_mem hlt, by simpa using hp⟩)
      have hnone : ∀ x ∈ slots, ∀ e ∈ x, ¬hasId id e = true := fun x hx e he hid => by
        have : 0 < (slots.flatten.map (·.id)).count id := List.count_pos_iff.2
          (List.mem_map.2 ⟨e, List.mem_flatten.2 ⟨x, hx, he⟩, by simpa [hasId] using hid⟩)
        omega
      rw [List.map_cons, List.eraseP_eq_eraseIdx,
        show hasId id = fun e : Entry W => e.id == id from rfl, hpos]
      congr 1
      exact ((List.map_congr_left fun x hx => List.eraseP_eq_self_iff.2 (hnone x hx)).trans
        (List.map_id' _)).symm
    · rename_i hnone
      obtain ⟨b'', h'', rfl⟩ := Option.map_eq_some_iff.1 h
      rw [List.map_cons, cancelSlots_eq_map (by omega) h'', List.eraseP_eq_self_iff.2]
      simpa [hasId, List.findIdx?_eq_none_iff] using hnone

theorem cancel_slots {id : TimerId} (hc : (w.slots.flatten.map (·.id)).count id ≤ 1) :
    (w.cancel id).1.slots = w.slots.map (·.eraseP (hasId id)) := by
  unfold cancel
  split
  · rename_i b' h
    exact cancelSlots_eq_map hc h
  · rename_i h
    refine ((List.map_congr_left fun x hx => List.eraseP_eq_self_iff.2 fun e he => ?_).trans
      (List.map_id' _)).symm
    simpa [hasId] using cancelSlots_eq_none.1 h e (List.mem_flatten.2 ⟨x, hx, he⟩)

theorem pendingCount_eq : w.pendingCount = w.slots.flatten.length := by
  rw [pendingCount, List.length_flatten]

@[simp] theorem cancel_currentSlot (id : TimerId) : (w.cancel id).1.currentSlot = w.currentSlot := by
  unfold cancel; split <;> rfl

@[simp] theorem cancel_numSlots (id : TimerId) : (w.cancel id).1.numSlots = w.numSlots := by
  unfold cancel; split <;> rfl

@[simp] theorem cancel_startTime (id : TimerId) : (w.cancel id).1.startTime = w.startTime := by
  unfold cancel; split <;> rfl

@[simp] theorem cancel_resolutionMs (id : TimerId) :
    (w.cancel id).1.resolutionMs = w.resolutionMs := by
  unfold cancel; split <;> rfl

theorem Valid.cancel (hw : w.Valid) (id : TimerId) : (w.cancel id).1.Valid := by
  unfold TimerWheel.cancel
  split
  · rename_i b' h
    exact { hw with length_slots := (cancelSlots_length h).trans hw.length_slots }
  · exact hw

/-! ## expire -/

/-- How many slots `expire` visits from the current slot: up to the slot of `now`
    while `now` lies within a rotation of the start of the wheel, and the whole
    wheel and one more slot afterwards. -/
def visits (w : TimerWheel W) (now : Instant) : Nat :=
  if w.slotOffset now < w.numSlots then dist w.numSlots w.currentSlot (w.slotOffset now)
  else w.numSlots + 1

/-- Within a rotation of the start, the `while` loop steps on to the slot of `now`. -/
theorem expireLoop_of_lt (hw : w.Valid) {off fuel : Nat} (hoff : off < w.numSlots)
    (hfuel : dist w.numSlots w.currentSlot off < fuel) :
    w.expireLoop off (off % w.numSlots) fuel = some (w.sweepSlots (dist w.numSlots w.currentSlot off)) := by
  obtain ⟨d, hd⟩ : ∃ d, dist w.numSlots w.currentSlot off = d := ⟨_, rfl⟩
  rw [hd] at hfuel ⊢
  obtain ⟨fuel, rfl⟩ : ∃ f, fuel = f + 1 := ⟨fuel - 1, by omega⟩
  rw [Nat.mod_eq_of_lt hoff]
  -- Induction on the distance left to the slot of `now`.
  induction d generalizing w fuel with
  | zero =>
    have hc : w.currentSlot = off := by
      simpa [hd, Nat.mod_eq_of_lt hw.currentSlot_lt] using add_dist_mod hw.currentSlot_lt hoff
    simp [expireLoop, hc, hoff, sweepSlots]
  | succ d ih =>
    have hne : w.currentSlot ≠ off := fun h => by rw [h, dist_self hoff] at hd; cases hd
    have hd' : dist w.numSlots w.drainCurrent.2.advance.currentSlot off = d := by
      have := dist_succ hw.currentSlot_lt hoff hne
      simp only [drainCurrent_snd, advance_currentSlot]
      omega
    obtain ⟨fuel, rfl⟩ : ∃ f, fuel = f + 1 := ⟨fuel - 1, by omega⟩
    have hoff' : ¬off ≥ w.drainCurrent.2.advance.numSlots := by simpa using hoff
    rw [expireLoop, if_pos (.inl hne), if_neg hoff',
      ih hw.advance_drainCurrent (by simpa using hoff) hd' fuel (by omega)]
    rfl

/-- A rotation or more from the start, the `while` loop sweeps the whole wheel once. -/
theorem expireLoop_of_ge {off t fuel : Nat} (hoff : w.numSlots ≤ off) :
    w.expireLoop off t (fuel + 1) = some (w.sweepSlots (w.numSlots + 1)) := by
  have hoff' : off ≥ w.drainCurrent.2.advance.numSlots := by simpa using hoff
  rw [expireLoop, if_pos (.inr hoff), if_pos hoff']
  rfl

/-- `expire` pops the entries of the slots it visits, in order, and moves on. -/
theorem popExpired_eq (hw : w.Valid) (now : Instant) :
    w.popExpired now = some (w.sweepSlots (w.visits now)) := by
  unfold popExpired visits
  dsimp only
  split_ifs with hoff
  · have := @dist_lt w.numSlots w.currentSlot (w.slotOffset now) hw.numSlots_pos
    exact expireLoop_of_lt hw hoff (by omega)
  · exact expireLoop_of_ge (not_lt.1 hoff)

theorem expire_eq (hw : w.Valid) (now : Instant) (ready : List W) :
    w.expire now ready = some ((w.sweepSlots (w.visits now)).2,
      ready ++ (w.sweepSlots (w.visits now)).1.map (·.waker)) := by
  rw [expire, popExpired_eq hw]
  rfl

theorem visits_le (now : Instant) (hw : w.Valid) : w.visits now ≤ w.numSlots + 1 := by
  unfold visits
  split_ifs
  · exact (dist_lt hw.numSlots_pos).le.trans (Nat.le_succ _)
  · exact le_rfl

end Miniss.TimerWheel
