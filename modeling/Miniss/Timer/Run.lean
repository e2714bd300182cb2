import Miniss.Timer.Operations

/-!
# Runs of the timer wheel

A wheel along any sequence of calls — `schedule`, `cancel`, `expire`, and draws
of the global `TIMER_COUNTER` by anyone else — together with a record of what
the calls handed back (`Timers`): the timers `schedule` returned, each with its
instant, the timers whose wakers `expire` pushed onto `ready`, and those `cancel`
found and removed.

`Timers.Inv` holds all along every run from a new wheel (`inv_run`):

* the ids handed out are distinct, and all below the counter;
* every pending entry sits in the slot of the instant it was scheduled for;
* no timer is lost or duplicated: the pending ids, the fired ids and the
  cancelled ids are, together, a permutation of the ids handed out.
-/

namespace Miniss

/-- A call on a timer wheel, or a draw of `TIMER_COUNTER` by another wheel. -/
inductive Call (W : Type*) where
  | schedule (t : Instant) (waker : W)
  | cancel (id : TimerId)
  | expire (now : Instant)
  | draw

/-- A timer wheel along a run of calls, with `TIMER_COUNTER` and a record of what
    the calls handed back. -/
structure Timers (W : Type*) where
  wheel : TimerWheel W
  counter : Nat
  /-- The timers `schedule` returned, each with its instant, in order. -/
  scheduled : List (TimerId × Instant)
  /-- The timers whose wakers `expire` pushed onto `ready`, in order. -/
  fired : List TimerId
  /-- The timers `cancel` found and removed, in order. -/
  cancelled : List TimerId

namespace Timers

open TimerWheel
open scoped List

variable {W : Type*}

/-- A new wheel, with the counter at `counter`, and nothing recorded yet. -/
def start (n r : Nat) (t0 : Instant) (counter : Nat) : Timers W where
  wheel := .new n r t0
  counter := counter
  scheduled := []
  fired := []
  cancelled := []

/-- One call. -/
def step (s : Timers W) : Call W → Timers W
  | .schedule t waker =>
    let r := s.wheel.schedule t waker s.counter
    { s with wheel := r.1, counter := r.2.2, scheduled := s.scheduled ++ [(r.2.1, t)] }
  | .cancel id =>
    let r := s.wheel.cancel id
    { s with wheel := r.1, cancelled := if r.2 then s.cancelled ++ [id] else s.cancelled }
  | .expire now =>
    match s.wheel.popExpired now with
    | some (popped, wheel) => { s with wheel, fired := s.fired ++ popped.map (·.id) }
    | none => s
  | .draw => { s with counter := (TimerId.new s.counter).2 }

/-- A run of calls. -/
def run (s : Timers W) (calls : List (Call W)) : Timers W := calls.foldl step s

/-- The ids of the entries pending in the wheel. -/
def pendingIds (s : Timers W) : List TimerId := s.wheel.slots.flatten.map (·.id)

/-- The ids handed out by `schedule`. -/
def ids (s : Timers W) : List TimerId := s.scheduled.map Prod.fst

/-- The invariant of a wheel along a run. -/
structure Inv (s : Timers W) : Prop where
  valid : s.wheel.Valid
  nodup : s.ids.Nodup
  lt_counter : ∀ p ∈ s.scheduled, p.1.val < s.counter
  /-- Every pending entry sits in the slot of the instant it was scheduled for. -/
  placed : ∀ j, ∀ e ∈ s.wheel.slots.getD j [], ∃ t, (e.id, t) ∈ s.scheduled ∧
    s.wheel.calculateSlot t = j
  /-- No timer lost or duplicated. -/
  perm : (s.pendingIds ++ s.fired ++ s.cancelled).Perm s.ids

theorem inv_start {n r : Nat} (hn : 0 < n) (hr : 0 < r) (t0 : Instant) (counter : Nat) :
    (start n r t0 counter : Timers W).Inv where
  valid := .new hn hr t0
  nodup := List.nodup_nil
  lt_counter := by simp [start]
  placed j e he := by simp [start, TimerWheel.new] at he
  perm := by simp [start, pendingIds, ids, TimerWheel.new]

variable {s : Timers W}

theorem run_append (calls : List (Call W)) (c : Call W) :
    s.run (calls ++ [c]) = (s.run calls).step c := List.foldl_append

/-- On a valid wheel, `expire` sweeps the slots up to that of `now`. -/
theorem step_expire (hw : s.wheel.Valid) (now : Instant) :
    s.step (.expire now) =
      { s with
        wheel := (s.wheel.sweepSlots (s.wheel.visits now)).2
        fired := s.fired ++ (s.wheel.sweepSlots (s.wheel.visits now)).1.map (·.id) } := by
  simp only [step, popExpired_eq hw now]

/-! ## One call keeps the invariant -/

theorem Inv.schedule (h : s.Inv) (t : Instant) (waker : W) : (s.step (.schedule t waker)).Inv := by
  have hfresh : ⟨s.counter⟩ ∉ s.ids := fun hm => by
    obtain ⟨p, hp, hid⟩ := List.mem_map.1 hm
    have := h.lt_counter p hp
    rw [hid] at this
    exact lt_irrefl _ this
  refine ⟨h.valid.schedule t waker s.counter, ?_, ?_, ?_, ?_⟩
  · simp only [step, ids, schedule_snd, List.map_append, List.map_cons, List.map_nil]
    exact List.nodup_append.2 ⟨h.nodup, List.nodup_singleton _,
      fun a ha b hb hab => hfresh (by rw [List.mem_singleton.1 hb] at hab; exact hab ▸ ha)⟩
  · simp only [step, schedule_snd, List.mem_append, List.mem_singleton]
    rintro p (hp | rfl)
    · exact (h.lt_counter p hp).trans (Nat.lt_succ_self _)
    · exact Nat.lt_succ_self _
  · intro j e he
    simp only [step, getD_schedule h.valid] at he
    split_ifs at he with hj
    · rcases List.mem_append.1 he with he | he
      · obtain ⟨t', ht', hj'⟩ := h.placed j e he
        exact ⟨t', List.mem_append_left _ ht', hj'⟩
      · rw [List.mem_singleton] at he
        subst he
        exact ⟨t, by simp [step], hj⟩
    · obtain ⟨t', ht', hj'⟩ := h.placed j e he
      exact ⟨t', List.mem_append_left _ ht', hj'⟩
  · have hp := (flatten_schedule_perm h.valid t waker s.counter).map (·.id)
    simp only [List.map_append, List.map_cons, List.map_nil] at hp
    simp only [step, pendingIds, ids, schedule_snd, List.map_append, List.map_cons, List.map_nil]
    calc (((s.wheel.schedule t waker s.counter).1.slots.flatten.map (·.id)) ++ s.fired ++ s.cancelled)
        _ ~ (s.pendingIds ++ [⟨s.counter⟩]) ++ s.fired ++ s.cancelled := (hp.append_right _).append_right _
        _ ~ (s.pendingIds ++ s.fired ++ s.cancelled) ++ [⟨s.counter⟩] :=
          List.perm_iff_count.2 fun a => by simp only [List.count_append]; omega
        _ ~ s.scheduled.map Prod.fst ++ [⟨s.counter⟩] := h.perm.append_right _

theorem Inv.cancel (h : s.Inv) (id : TimerId) : (s.step (.cancel id)).Inv := by
  cases hf : (s.wheel.cancel id).2 with
  | false =>
    -- Nothing found: the wheel is left as it was.
    have hw := cancel_fst_of_snd_eq_false hf
    simp only [step, hf, hw, Bool.false_eq_true, if_false]
    exact h
  | true =>
    have hid : id ∈ s.pendingIds := by
      obtain ⟨e, he, rfl⟩ := cancel_snd_eq_true.1 hf
      exact List.mem_map_of_mem he
    refine ⟨h.valid.cancel id, h.nodup, h.lt_counter, fun j e he => ?_, ?_⟩
    · simp only [step] at he ⊢
      obtain ⟨t, ht, hj⟩ := h.placed j e (getD_cancel_subset id j he)
      exact ⟨t, ht, by rw [cancel_calculateSlot]; exact hj⟩
    · simp only [step, hf, if_true, pendingIds, map_id_flatten_cancel]
      refine (List.perm_iff_count.2 fun a => ?_).trans h.perm
      simp only [List.count_append, pendingIds]
      by_cases ha : a = id
      · subst ha
        have := List.count_pos_iff.2 hid
        simp only [pendingIds] at this
        simp only [List.count_erase_self, List.count_singleton_self]
        omega
      · simp [List.count_erase_of_ne ha, Ne.symm ha]

theorem Inv.expire (h : s.Inv) (now : Instant) : (s.step (.expire now)).Inv := by
  have hc := h.valid.currentSlot_lt
  rw [step_expire h.valid now]
  refine ⟨h.valid.sweepSlots _, h.nodup, h.lt_counter, fun j e he => ?_, ?_⟩
  · rw [getD_sweepSlots hc] at he
    split_ifs at he
    · simp at he
    · obtain ⟨t, ht, hj⟩ := h.placed j e he
      exact ⟨t, ht, by rw [sweepSlots_calculateSlot]; exact hj⟩
  · -- What the sweep popped moved from the pending ids to the fired ones.
    have hp := List.perm_iff_count.1 ((sweepSlots_perm hc (s.wheel.visits now)).map (·.id))
    refine (List.perm_iff_count.2 fun a => ?_).trans h.perm
    have := hp a
    simp only [pendingIds, List.map_append, List.count_append] at this ⊢
    omega

theorem Inv.draw (h : s.Inv) : (s.step .draw).Inv :=
  { h with lt_counter := fun p hp => (h.lt_counter p hp).trans (Nat.lt_succ_self _) }

theorem Inv.step (h : s.Inv) : ∀ c : Call W, (s.step c).Inv
  | .schedule t waker => h.schedule t waker
  | .cancel id => h.cancel id
  | .expire now => h.expire now
  | .draw => h.draw

/-- The invariant holds all along a run. -/
theorem Inv.run (h : s.Inv) (calls : List (Call W)) : (s.run calls).Inv := by
  induction calls generalizing s with
  | nil => exact h
  | cons c calls ih => exact ih (h.step c)

/-! ## Where the pending timers are -/

/-- A pending entry found in slot `j` is there because its instant is in slot `j`. -/
theorem Inv.calculateSlot_eq (h : s.Inv) {e : Entry W} {t : Instant} {j : Nat}
    (he : e ∈ s.wheel.slots.getD j []) (ht : (e.id, t) ∈ s.scheduled) :
    s.wheel.calculateSlot t = j := by
  obtain ⟨t', ht', hjt⟩ := h.placed j e he
  have htt : t' = t := (Prod.ext_iff.1 (List.inj_on_of_nodup_map h.nodup ht' ht rfl)).2
  rwa [htt] at hjt

/-- A pending entry sits in the slot of the instant its timer was scheduled for. -/
theorem Inv.mem_getD_calculateSlot (h : s.Inv) {e : Entry W} {t : Instant}
    (he : e ∈ s.wheel.slots.flatten) (ht : (e.id, t) ∈ s.scheduled) :
    e ∈ s.wheel.slots.getD (s.wheel.calculateSlot t) [] := by
  obtain ⟨l, hl, hel⟩ := List.mem_flatten.1 he
  obtain ⟨j, hj, rfl⟩ := List.mem_iff_getElem.1 hl
  have hej : e ∈ s.wheel.slots.getD j [] := by rwa [List.getD_eq_getElem _ _ hj]
  rwa [h.calculateSlot_eq hej ht]

/-! ## What a call leaves alone -/

/-- No call moves the start of the wheel, or changes its resolution or its size. -/
theorem Inv.step_params (h : s.Inv) (c : Call W) :
    (s.step c).wheel.startTime = s.wheel.startTime ∧
      (s.step c).wheel.resolutionMs = s.wheel.resolutionMs ∧
      (s.step c).wheel.numSlots = s.wheel.numSlots := by
  cases c with
  | schedule t waker => exact ⟨rfl, rfl, rfl⟩
  | cancel id => exact ⟨cancel_startTime id, cancel_resolutionMs id, cancel_numSlots id⟩
  | expire now =>
    rw [step_expire h.valid now, sweepSlots_eq h.valid.currentSlot_lt]
    exact ⟨rfl, rfl, rfl⟩
  | draw => exact ⟨rfl, rfl, rfl⟩

theorem Inv.step_slotOffset (h : s.Inv) (c : Call W) :
    (s.step c).wheel.slotOffset = s.wheel.slotOffset := by
  obtain ⟨h1, h2, -⟩ := h.step_params c
  funext t
  simp only [slotOffset, h1, h2]

/-! ## Conservation -/

theorem Inv.count_ids (h : s.Inv) (id : TimerId) :
    s.pendingIds.count id + s.fired.count id + s.cancelled.count id = s.ids.count id := by
  rw [← List.count_append, ← List.count_append]
  exact h.perm.count_eq id

theorem Inv.count_pendingIds_le (h : s.Inv) (id : TimerId) :
    (s.wheel.slots.flatten.map (·.id)).count id ≤ 1 := by
  have := h.count_ids id
  have := List.nodup_iff_count_le_one.1 h.nodup id
  simp only [pendingIds] at *
  omega

theorem Inv.nodup_pendingIds (h : s.Inv) : s.pendingIds.Nodup :=
  List.nodup_iff_count_le_one.2 h.count_pendingIds_le

/-- Conservation: along every run from a new wheel with at least one slot and a
    positive resolution, every timer handed out by `schedule` is, at every moment,
    exactly one of pending (a single entry, in a single slot), fired (by a single
    `expire`) and cancelled (by a single `cancel`), and no other id is any of them;
    `cancel` returns `true` exactly for a pending timer, and takes out that one entry
    and nothing else; and `pending_count` is the number of timers scheduled, less
    those fired and those cancelled. -/
theorem timers_conservation {n r : Nat} (hn : 0 < n) (hr : 0 < r) (t0 : Instant) (counter : Nat)
    (calls : List (Call W)) :
    let s := (start n r t0 counter : Timers W).run calls
    (∀ id ∈ s.ids, s.pendingIds.count id + s.fired.count id + s.cancelled.count id = 1) ∧
    (∀ id ∉ s.ids, id ∉ s.pendingIds ∧ id ∉ s.fired ∧ id ∉ s.cancelled) ∧
    (∀ id, ((s.wheel.cancel id).2 = true ↔ id ∈ s.pendingIds) ∧
      (s.wheel.cancel id).1.slots = s.wheel.slots.map (·.eraseP (hasId id))) ∧
    s.wheel.pendingCount = s.scheduled.length - s.fired.length - s.cancelled.length := by
  intro s
  have h : s.Inv := (inv_start hn hr t0 counter).run calls
  refine ⟨fun id hid => ?_, fun id hid => ?_, fun id => ⟨?_, cancel_slots (h.count_pendingIds_le id)⟩, ?_⟩
  · rw [h.count_ids, List.count_eq_one_of_mem h.nodup hid]
  · have := h.count_ids id
    rw [List.count_eq_zero_of_not_mem hid] at this
    refine ⟨fun hm => ?_, fun hm => ?_, fun hm => ?_⟩ <;>
      have := List.count_pos_iff.2 hm <;> omega
  · rw [cancel_snd_eq_true, pendingIds, List.mem_map]
  · have := h.perm.length_eq
    simp only [List.length_append, ids, List.length_map, pendingIds] at this
    rw [pendingCount_eq]
    omega

/-- The conservation on a wheel of `4` slots of `1` ms, along two schedules, a
    cancel of the first and an `expire` at `2` ms. -/
theorem timers_conservation_four_slots :
    (0 < 4 ∧ 0 < 1) ∧
    (let s := (start 4 1 0 0 : Timers Unit).run
      [.schedule 1000000 (), .schedule 3000000 (), .cancel ⟨0⟩, .expire 2000000]
    (∀ id ∈ s.ids, s.pendingIds.count id + s.fired.count id + s.cancelled.count id = 1) ∧
    (∀ id ∉ s.ids, id ∉ s.pendingIds ∧ id ∉ s.fired ∧ id ∉ s.cancelled) ∧
    (∀ id, ((s.wheel.cancel id).2 = true ↔ id ∈ s.pendingIds) ∧
      (s.wheel.cancel id).1.slots = s.wheel.slots.map (·.eraseP (hasId id))) ∧
    s.wheel.pendingCount = s.scheduled.length - s.fired.length - s.cancelled.length) :=
  ⟨⟨by decide, by decide⟩, timers_conservation (by decide) (by decide) 0 0
    [.schedule 1000000 (), .schedule 3000000 (), .cancel ⟨0⟩, .expire 2000000]⟩

end Timers

end Miniss
