import Miniss.Runtime.CpuRun

/-!
# Cancellation on a CPU

`CpuHandle::cancel_task` sends `CancelTask(id)`. `Cpu::handle_message` marks
the id in `cancelled_tasks` and removes its task from the map at once; the
ready loop of `tick`, popping a marked id, forgets the mark and removes the
task under the id, if any, without polling it. The mark is thus consumed by
the first pop of the id, whether its task is in the map or not.

The `dropped` record of a traced CPU holds the ids whose `CancelTask` was
handled (and again each marked id as it is popped).

* `CancelInv`: an id whose `CancelTask` was handled is still marked, or its
  task was inserted and is gone from the map. Every event keeps it along a run
  in which no id is inserted twice and the ready queue only ever holds ids
  inserted (`CancelInv.run`), and no task under such an id is polled again;
* `Kept`: the task of an id for which no `CancelTask` was sent stays in the
  map until a poll of it returns `Ready` (`Kept.run`);
* `polled_after_cancel`: a wake-up of an id between its `CancelTask` and its
  `SubmitTask` consumes the mark, and the task submitted is then polled;
* `cancel_safe`: along every run from `Cpu::new` in which no id is inserted
  twice.
-/

namespace Miniss

namespace CpuTraced

variable {β σ R : Type*} {poll : σ → TaskId → PollStep β σ} {s : CpuTraced β σ R}
  {k : TaskId}

/-! ## What each event does to the map, the marks and the records -/

/-- The events other than a spawn, a send, a receive and a round of the ready
    loop: they only push onto the ready queue or touch the timers and the I/O
    state. -/
def Quiet : CpuEvent σ R → Prop
  | .spawn _ | .send _ | .receive | .pop => False
  | _ => True

variable (poll) in
/-- A quiet event leaves the map, the marks, the channel and the records
    alone. -/
theorem perform_frame {ev : CpuEvent σ R} (hev : Quiet ev) :
    (s.perform poll ev).cpu.taskQueue = s.cpu.taskQueue ∧
      (s.perform poll ev).cpu.cancelledTasks = s.cpu.cancelledTasks ∧
      (s.perform poll ev).cpu.messageReceiver = s.cpu.messageReceiver ∧
      (s.perform poll ev).dropped = s.dropped ∧ (s.perform poll ev).inserted = s.inserted ∧
      (s.perform poll ev).polls = s.polls := by
  cases ev with
  | spawn _ | send _ | receive | pop => exact hev.elim
  | expireTimers now =>
    cases he : s.cpu.timer.expire now [] <;> simp [perform, he]
  | pollIo completions =>
    cases completions with
    | none => simp [perform, Cpu.pollIoCompletions]
    | some cs => by_cases hc : cs.isEmpty <;> simp [perform, Cpu.pollIoCompletions, hc]
  | scheduleTimer instant taskId counter => simp [perform, Cpu.scheduleTimer]
  | pollIoFuture token taskId => simp [perform]
  | wake taskId => simp [perform]

/-- Only a round of the ready loop polls. -/
theorem polls_perform_of_ne_pop {ev : CpuEvent σ R} (hev : ev ≠ .pop) :
    (s.perform poll ev).polls = s.polls := by
  cases ev with
  | spawn future | send message => rfl
  | receive =>
    cases hb : s.cpu.messageReceiver.buffer with
    | nil => rw [perform_receive_of_nil hb]
    | cons message ms => rw [perform_receive_of_cons hb]
  | pop => exact absurd rfl hev
  | expireTimers _ | pollIo _ | scheduleTimer _ _ _ | pollIoFuture _ _ | wake _ =>
    exact (perform_frame poll (by trivial)).2.2.2.2.2

theorem dropped_step (ev : CpuEvent σ R) : ∃ l, (s.step poll ev).dropped = s.dropped ++ l := by
  cases hu : s.unwound
  · rw [step_of_running hu]
    cases ev with
    | spawn future | send message => exact ⟨[], (List.append_nil _).symm⟩
    | receive =>
      cases hb : s.cpu.messageReceiver.buffer with
      | nil => exact ⟨[], by rw [perform_receive_of_nil hb, List.append_nil]⟩
      | cons message ms => exact ⟨message.cancels, by rw [perform_receive_of_cons hb]⟩
    | pop =>
      rcases (pop_cases poll s).2.2 with ⟨-, -, hd, -⟩ | ⟨j, -, -, -, -, hd, -⟩ |
        ⟨j, o, -, -, -, -, hd, -⟩
      · exact ⟨[], by rw [perform, hd, List.append_nil]⟩
      · exact ⟨[j], by rw [perform, hd]⟩
      · exact ⟨[], by rw [perform, hd, List.append_nil]⟩
    | expireTimers _ | pollIo _ | scheduleTimer _ _ _ | pollIoFuture _ _ | wake _ =>
      exact ⟨[], by rw [(perform_frame poll (by trivial)).2.2.2.1, List.append_nil]⟩
  · exact ⟨[], by rw [step_of_unwound hu, List.append_nil]⟩

theorem inserted_run (events : List (CpuEvent σ R)) :
    ∃ l, (s.run poll events).inserted = s.inserted ++ l := by
  induction events generalizing s with
  | nil => exact ⟨[], by simp⟩
  | cons ev events ih =>
    obtain ⟨l₁, h₁⟩ : ∃ l, (s.step poll ev).inserted = s.inserted ++ l := inserted_step ev
    obtain ⟨l₂, h₂⟩ := ih (s := s.step poll ev)
    exact ⟨l₁ ++ l₂, by rw [run_cons, h₂, h₁, List.append_assoc]⟩

/-- A run in which no id is inserted twice has no such step. -/
theorem nodup_step_of_run {ev : CpuEvent σ R} {events : List (CpuEvent σ R)}
    (h : (s.run poll (ev :: events)).inserted.Nodup) : (s.step poll ev).inserted.Nodup := by
  obtain ⟨l, hl⟩ : ∃ l, ((s.step poll ev).run poll events).inserted = (s.step poll ev).inserted ++ l :=
    inserted_run events
  rw [run_cons, hl] at h
  exact h.of_append_left

/-! ## An id whose cancellation was handled is never polled again -/

/-- Every id on the ready queue is the id of a task inserted: a waker is made
    only for such an id. -/
def Queued (s : CpuTraced β σ R) : Prop :=
  ∀ j ∈ s.cpu.readyQueue, j ∈ s.inserted

/-- The marks have no duplicate, and an id whose `CancelTask` was handled is
    still marked, or its task was inserted and is gone from the map. -/
structure CancelInv (s : CpuTraced β σ R) : Prop where
  nodup : s.cpu.cancelledTasks.Nodup
  unmarked : ∀ k ∈ s.dropped, k ∉ s.cpu.cancelledTasks → k ∈ s.inserted ∧ k ∉ s.cpu.taskQueue

theorem cancelInv_start (id : Nat) (rx : Chan (CrossCpuMessage σ)) (now : Instant) :
    (start id rx now : CpuTraced β σ R).CancelInv :=
  ⟨List.nodup_nil, fun _ hk => absurd hk List.not_mem_nil⟩

/-- A step that keeps the marks and the record of cancellations, and puts into
    the map no id but those in it and fresh ones. -/
theorem CancelInv.of_frame (h : s.CancelInv) {s' : CpuTraced β σ R}
    (hc : s'.cpu.cancelledTasks = s.cpu.cancelledTasks) (hd : s'.dropped = s.dropped)
    (hi : ∀ j ∈ s.inserted, j ∈ s'.inserted)
    (htq : ∀ j ∈ s'.cpu.taskQueue, j ∈ s.cpu.taskQueue ∨ j ∉ s.inserted) : s'.CancelInv where
  nodup := hc ▸ h.nodup
  unmarked k hk hkc := by
    rw [hd] at hk
    rw [hc] at hkc
    obtain ⟨hki, hkt⟩ := h.unmarked k hk hkc
    refine ⟨hi k hki, fun hk' => ?_⟩
    rcases htq k hk' with hk' | hk'
    · exact hkt hk'
    · exact hk' hki

/-- Handling `CancelTask(j)`: `j` marked, its task removed. -/
theorem CancelInv.cancel (h : s.CancelInv) {s' : CpuTraced β σ R} {j : TaskId}
    (htq : s'.cpu.taskQueue = s.cpu.taskQueue.erase j)
    (hc : s'.cpu.cancelledTasks = s.cpu.cancelledTasks.insert j)
    (hd : s'.dropped = s.dropped ++ [j]) (hi : s'.inserted = s.inserted) : s'.CancelInv where
  nodup := hc ▸ h.nodup.insert
  unmarked k hk hkc := by
    rw [hc, List.mem_insert_iff, not_or] at hkc
    rw [hd, List.mem_append, List.mem_singleton] at hk
    obtain ⟨hki, hkt⟩ := h.unmarked k (hk.resolve_right hkc.1) hkc.2
    rw [hi, htq, AList.mem_erase]
    exact ⟨hki, fun hk' => hkt hk'.2⟩

/-- A marked id popped: its mark forgotten, its task removed. -/
theorem CancelInv.pop_marked (h : s.CancelInv) {s' : CpuTraced β σ R} {j : TaskId}
    (hj : j ∈ s.inserted) (htq : s'.cpu.taskQueue = s.cpu.taskQueue.erase j)
    (hc : s'.cpu.cancelledTasks = s.cpu.cancelledTasks.erase j)
    (hd : s'.dropped = s.dropped ++ [j]) (hi : s'.inserted = s.inserted) : s'.CancelInv where
  nodup := hc ▸ h.nodup.erase j
  unmarked k hk hkc := by
    rw [hi, htq, AList.mem_erase]
    by_cases hkj : k = j
    · subst hkj
      exact ⟨hj, fun hk' => hk'.1 rfl⟩
    · rw [hc, List.mem_erase_of_ne hkj] at hkc
      rw [hd, List.mem_append, List.mem_singleton] at hk
      obtain ⟨hki, hkt⟩ := h.unmarked k (hk.resolve_right hkj) hkc
      exact ⟨hki, fun hk' => hkt hk'.2⟩

/-- The insertion of a fresh id. -/
theorem CancelInv.insert (h : s.CancelInv) {s' : CpuTraced β σ R} {j : TaskId}
    (hfresh : (s.inserted ++ [j]).Nodup) (htq : ∀ i ∈ s'.cpu.taskQueue, i = j ∨ i ∈ s.cpu.taskQueue)
    (hc : s'.cpu.cancelledTasks = s.cpu.cancelledTasks) (hd : s'.dropped = s.dropped)
    (hi : s'.inserted = s.inserted ++ [j]) : s'.CancelInv := by
  refine h.of_frame hc hd (fun i hi' => hi ▸ List.mem_append_left _ hi') fun i hi' => ?_
  rcases htq i hi' with rfl | hi'
  · exact .inr (not_mem_of_nodup_append_singleton hfresh)
  · exact .inl hi'

theorem CancelInv.quiet (h : s.CancelInv) {ev : CpuEvent σ R} (hev : Quiet ev) :
    (s.perform poll ev).CancelInv := by
  obtain ⟨htq, hc, -, hd, hi, -⟩ := perform_frame poll (s := s) hev
  exact h.of_frame hc hd (fun _ hj => hi ▸ hj) fun _ hj => .inl (htq ▸ hj)

theorem CancelInv.perform (h : s.CancelInv) (hq : s.Queued) (ev : CpuEvent σ R)
    (hfresh : (s.perform poll ev).inserted.Nodup) : (s.perform poll ev).CancelInv := by
  cases ev with
  | spawn future =>
    refine h.insert hfresh (fun i hi => ?_) rfl rfl rfl
    simpa [CpuTraced.perform, Cpu.spawn, Cpu.insertTask, AList.mem_insert] using hi
  | send message => exact h.of_frame rfl rfl (fun _ hj => hj) fun _ hj => .inl hj
  | receive =>
    cases hb : s.cpu.messageReceiver.buffer with
    | nil => rw [perform_receive_of_nil hb]; exact h
    | cons message ms =>
      rw [perform_receive_of_cons hb] at hfresh ⊢
      cases message with
      | submitTask j task =>
        refine h.insert hfresh (fun i hi => ?_) rfl (List.append_nil _) rfl
        simpa [Cpu.handleMessage, Cpu.insertTask, AList.mem_insert] using hi
      | cancelTask j => exact h.cancel rfl rfl rfl (List.append_nil _)
      | shutdown | ping _ =>
        exact h.of_frame rfl (List.append_nil _) (fun _ hj => List.mem_append_left _ hj)
          fun _ hj => .inl hj
  | pop =>
    obtain ⟨hi, -, hpop⟩ := pop_cases poll s
    rcases hpop with ⟨htq, hc, hd, -⟩ | ⟨j, hjq, -, htq, hc, hd, -⟩ |
      ⟨j, o, -, -, htq, hc, hd, -⟩
    · exact h.of_frame hc hd (fun _ hj => hi ▸ hj) fun _ hj => .inl (htq ▸ hj)
    · exact h.pop_marked (hq j hjq) htq hc hd hi
    · exact h.of_frame hc hd (fun _ hj => hi ▸ hj) fun i hi' => .inl ((htq i).1 hi').1
  | expireTimers _ | pollIo _ | scheduleTimer _ _ _ | pollIoFuture _ _ | wake _ =>
    exact h.quiet (by trivial)

/-- While the invariant holds, no task under an id whose `CancelTask` was
    handled is polled: it is marked, and skipped, or gone from the map. -/
theorem CancelInv.polls_perform (h : s.CancelInv) (hk : k ∈ s.dropped) (ev : CpuEvent σ R) :
    ∃ l, (s.perform poll ev).polls = s.polls ++ l ∧ k ∉ l.map Prod.fst := by
  by_cases hev : ev = .pop
  · subst hev
    rcases (pop_cases poll s).2.2 with ⟨-, -, -, hp⟩ | ⟨j, -, -, -, -, -, hp⟩ |
      ⟨j, o, hjc, hjt, -, -, -, hp⟩
    · exact ⟨[], by rw [CpuTraced.perform, hp, List.append_nil], by simp⟩
    · exact ⟨[], by rw [CpuTraced.perform, hp, List.append_nil], by simp⟩
    · refine ⟨[(j, o)], hp, ?_⟩
      rintro hkj
      rw [List.map_singleton, List.mem_singleton] at hkj
      subst hkj
      exact (h.unmarked k hk hjc).2 hjt
  · exact ⟨[], by rw [polls_perform_of_ne_pop hev, List.append_nil], by simp⟩

theorem CancelInv.step (h : s.CancelInv) (hq : s.Queued) (ev : CpuEvent σ R)
    (hfresh : (s.step poll ev).inserted.Nodup) : (s.step poll ev).CancelInv := by
  cases hu : s.unwound
  · rw [step_of_running hu] at hfresh ⊢
    exact h.perform hq ev hfresh
  · rw [step_of_unwound hu]
    exact h

theorem CancelInv.polls_step (h : s.CancelInv) (hk : k ∈ s.dropped) (ev : CpuEvent σ R) :
    ∃ l, (s.step poll ev).polls = s.polls ++ l ∧ k ∉ l.map Prod.fst := by
  cases hu : s.unwound
  · rw [step_of_running hu]
    exact h.polls_perform hk ev
  · exact ⟨[], by rw [step_of_unwound hu, List.append_nil], by simp⟩

/-- The run lemma: along a run in which no id is inserted twice and the ready
    queue holds only ids inserted, the invariant holds, and no task under an id
    whose `CancelTask` was handled at the start is polled. -/
theorem CancelInv.run (h : s.CancelInv) (events : List (CpuEvent σ R))
    (hq : ∀ e₁ e₂, events = e₁ ++ e₂ → (s.run poll e₁).Queued)
    (hfresh : (s.run poll events).inserted.Nodup) :
    (s.run poll events).CancelInv ∧
      ∀ k ∈ s.dropped, ∃ l, (s.run poll events).polls = s.polls ++ l ∧ k ∉ l.map Prod.fst := by
  induction events generalizing s with
  | nil => exact ⟨h, fun k _ => ⟨[], by simp, by simp⟩⟩
  | cons ev events ih =>
    have h₁ : (s.step poll ev).CancelInv := h.step (hq [] _ rfl) ev (nodup_step_of_run hfresh)
    obtain ⟨hrun, hpolls⟩ := ih h₁ (fun e₁ e₂ he => hq (ev :: e₁) e₂ (by rw [he]; rfl)) hfresh
    refine ⟨hrun, fun k hk => ?_⟩
    obtain ⟨l₁, hp₁, hk₁⟩ := h.polls_step hk ev
    obtain ⟨d, hd⟩ : ∃ d, (s.step poll ev).dropped = s.dropped ++ d := dropped_step ev
    obtain ⟨l₂, hp₂, hk₂⟩ := hpolls k (hd ▸ List.mem_append_left _ hk)
    refine ⟨l₁ ++ l₂, by rw [run_cons, hp₂, hp₁, List.append_assoc], ?_⟩
    rw [List.map_append, List.mem_append, not_or]
    exact ⟨hk₁, hk₂⟩

/-! ## A task never cancelled leaves the map only by returning `Ready` -/

/-- No `CancelTask(k)` waits in the channel or was handled, and the task of
    `k`, if inserted, is in the map or a poll of it returned `Ready`. -/
structure Kept (k : TaskId) (s : CpuTraced β σ R) : Prop where
  unsent : CrossCpuMessage.cancelTask k ∉ s.cpu.messageReceiver.buffer
  unmarked : k ∉ s.cpu.cancelledTasks
  live : k ∈ s.inserted → k ∈ s.cpu.taskQueue ∨ (k, Outcome.finished) ∈ s.polls

theorem Kept.of_frame (h : s.Kept k) {s' : CpuTraced β σ R}
    (hb : CrossCpuMessage.cancelTask k ∉ s'.cpu.messageReceiver.buffer)
    (hc : k ∉ s'.cpu.cancelledTasks)
    (hi : k ∈ s'.inserted → k ∈ s.inserted ∨ k ∈ s'.cpu.taskQueue)
    (htq : k ∈ s.cpu.taskQueue → k ∈ s'.cpu.taskQueue ∨ (k, Outcome.finished) ∈ s'.polls)
    (hp : ∀ p ∈ s.polls, p ∈ s'.polls) : s'.Kept k where
  unsent := hb
  unmarked := hc
  live hk := by
    rcases hi hk with hk | hk
    · rcases h.live hk with hk | hk
      · exact htq hk
      · exact .inr (hp _ hk)
    · exact .inl hk

/-- The insertion of an id, with the rest of the map kept. -/
theorem Kept.insert (h : s.Kept k) {s' : CpuTraced β σ R} {j : TaskId}
    (hb : ∀ m ∈ s'.cpu.messageReceiver.buffer, m ∈ s.cpu.messageReceiver.buffer)
    (htq : ∀ i, i ∈ s'.cpu.taskQueue ↔ i = j ∨ i ∈ s.cpu.taskQueue)
    (hc : s'.cpu.cancelledTasks = s.cpu.cancelledTasks)
    (hi : s'.inserted = s.inserted ++ [j]) (hp : s'.polls = s.polls) : s'.Kept k := by
  refine h.of_frame (fun hk => h.unsent (hb _ hk)) (hc ▸ h.unmarked) (fun hk => ?_)
    (fun hk => .inl ((htq k).2 (.inr hk))) (fun _ hp' => hp ▸ hp')
  rw [hi, List.mem_append, List.mem_singleton] at hk
  rcases hk with hk | rfl
  · exact .inl hk
  · exact .inr ((htq k).2 (.inl rfl))

theorem Kept.quiet (h : s.Kept k) {ev : CpuEvent σ R} (hev : Quiet ev) :
    (s.perform poll ev).Kept k := by
  obtain ⟨htq, hc, hrx, -, hi, hp⟩ := perform_frame poll (s := s) hev
  exact h.of_frame (hrx ▸ h.unsent) (hc ▸ h.unmarked) (fun hk => .inl (hi ▸ hk))
    (fun hk => .inl (htq ▸ hk)) (fun _ hp' => hp ▸ hp')

theorem Kept.perform (h : s.Kept k) (ev : CpuEvent σ R) (hev : ev ≠ .send (.cancelTask k)) :
    (s.perform poll ev).Kept k := by
  cases ev with
  | spawn future =>
    exact h.insert (fun _ hm => hm)
      (fun i => by simp [CpuTraced.perform, Cpu.spawn, Cpu.insertTask, AList.mem_insert]) rfl rfl rfl
  | send message =>
    refine h.of_frame (fun hk => ?_) h.unmarked (fun hk => .inl hk) (fun hk => .inl hk)
      fun _ hp => hp
    rw [CpuTraced.perform, Chan.send_buffer, List.mem_append, List.mem_singleton] at hk
    rcases hk with hk | hk
    · exact h.unsent hk
    · exact hev (by rw [hk])
  | receive =>
    cases hb : s.cpu.messageReceiver.buffer with
    | nil => rw [perform_receive_of_nil hb]; exact h
    | cons message ms =>
      have hms : ∀ m ∈ ms, m ∈ s.cpu.messageReceiver.buffer := fun m hm =>
        hb ▸ List.mem_cons_of_mem _ hm
      rw [perform_receive_of_cons hb]
      cases message with
      | submitTask j task =>
        exact h.insert hms (fun i => by simp [Cpu.handleMessage, Cpu.insertTask, AList.mem_insert])
          rfl rfl rfl
      | cancelTask j =>
        -- Another id: its task removed, its mark set.
        have hjk : j ≠ k := fun hjk => h.unsent (hjk ▸ hb ▸ List.mem_cons_self)
        refine h.of_frame (fun hk => h.unsent (hms _ hk)) ?_
          (fun hk => .inl (by simpa [CrossCpuMessage.inserts] using hk))
          (fun hk => .inl ?_) fun _ hp => hp
        · simpa [Cpu.handleMessage, Cpu.removeTask, List.mem_insert_iff, Ne.symm hjk] using
            h.unmarked
        · simpa [Cpu.handleMessage, Cpu.removeTask, AList.mem_erase, Ne.symm hjk] using hk
      | shutdown | ping _ =>
        exact h.of_frame (fun hk => h.unsent (hms _ hk)) h.unmarked
          (fun hk => .inl (by simpa [CrossCpuMessage.inserts] using hk)) (fun hk => .inl hk)
          fun _ hp => hp
  | pop =>
    show (s.pop poll).Kept k
    obtain ⟨hi, hrx, hpop⟩ := pop_cases poll s
    have hb : CrossCpuMessage.cancelTask k ∉ (s.pop poll).cpu.messageReceiver.buffer :=
      hrx ▸ h.unsent
    rcases hpop with ⟨htq, hc, -, hp⟩ | ⟨j, -, hjc, htq, hc, -, hp⟩ |
      ⟨j, o, -, -, htq, hc, -, hp⟩
    · exact h.of_frame hb (hc ▸ h.unmarked) (fun hk => .inl (hi ▸ hk)) (fun hk => .inl (htq ▸ hk))
        fun _ hp' => hp ▸ hp'
    · -- A marked id, not `k`.
      have hjk : j ≠ k := fun hjk => h.unmarked (hjk ▸ hjc)
      refine h.of_frame hb ?_ (fun hk => .inl (hi ▸ hk)) (fun hk => .inl ?_) fun _ hp' => hp ▸ hp'
      · rw [hc]
        exact fun hk => h.unmarked (List.mem_of_mem_erase hk)
      · rw [htq, AList.mem_erase]
        exact ⟨Ne.symm hjk, hk⟩
    · -- A task polled: `k` stays in the map unless its poll returned `Ready`.
      refine h.of_frame hb (hc ▸ h.unmarked) (fun hk => .inl (hi ▸ hk)) (fun hk => ?_)
        fun _ hp' => hp ▸ List.mem_append_left _ hp'
      by_cases hkj : k = j
      · subst hkj
        cases o with
        | pending => exact .inl ((htq k).2 ⟨hk, fun _ => rfl⟩)
        | finished => exact .inr (hp ▸ List.mem_append_right _ (List.mem_singleton_self _))
      · exact .inl ((htq k).2 ⟨hk, fun h => absurd h hkj⟩)
  | expireTimers _ | pollIo _ | scheduleTimer _ _ _ | pollIoFuture _ _ | wake _ =>
    exact h.quiet (by trivial)

/-- The run lemma: along a run that sends no `CancelTask(k)`. -/
theorem Kept.run (h : s.Kept k) (events : List (CpuEvent σ R))
    (hev : CpuEvent.send (.cancelTask k) ∉ events) : (s.run poll events).Kept k := by
  induction events generalizing s with
  | nil => exact h
  | cons ev events ih =>
    rw [run_cons]
    refine ih ?_ fun hk => hev (List.mem_cons_of_mem _ hk)
    cases hu : s.unwound
    · rw [step_of_running hu]
      exact h.perform ev fun he => hev (he ▸ List.mem_cons_self)
    · rw [step_of_unwound hu]
      exact h

/-! ## Cancellation on a CPU -/

/-- A wake-up of `5` between its `CancelTask` and its `SubmitTask` — through a
    waker made for the id before its task exists, such as the one
    `Cpu::schedule_timer(at, task_id)` makes for any id — pops `5`, which
    consumes the mark; the task then submitted under `5` is polled. -/
theorem polled_after_cancel :
    let s₀ := (start 0 Chan.new 0 : CpuTraced Unit Unit Unit)
    let e₁ : List (CpuEvent Unit Unit) := [CpuEvent.send (.cancelTask ⟨5⟩), CpuEvent.receive]
    let e₂ : List (CpuEvent Unit Unit) :=
      [CpuEvent.wake ⟨5⟩, CpuEvent.pop, CpuEvent.send (.submitTask ⟨5⟩ ()), CpuEvent.receive,
        CpuEvent.pop]
    (s₀.run (fun _ _ => ⟨.pending (), []⟩) (e₁ ++ e₂)).inserted.Nodup ∧
      (⟨5⟩ : TaskId) ∈ (s₀.run (fun _ _ => ⟨.pending (), []⟩) e₁).dropped ∧
      (s₀.run (fun _ _ => ⟨.pending (), []⟩) (e₁ ++ e₂)).polls =
        (s₀.run (fun _ _ => ⟨.pending (), []⟩) e₁).polls ++ [(⟨5⟩, Outcome.pending)] :=
  ⟨by decide, by decide, rfl⟩

variable (poll) in
/-- Along every run of a CPU from `Cpu::new` in which no id is inserted twice:
    if the ready queue only ever holds ids of tasks inserted, no task under an
    id whose `CancelTask` has been handled is polled afterwards; and the task
    of an id for which no `CancelTask` was ever sent is in the map unless a
    poll of it returned `Ready`. -/
theorem cancel_safe (id : Nat) (rx : Chan (CrossCpuMessage σ)) (now : Instant)
    (events : List (CpuEvent σ R))
    (hfresh : ((start id rx now : CpuTraced β σ R).run poll events).inserted.Nodup) :
    ((∀ e₁ e₂, events = e₁ ++ e₂ → ∀ j ∈ ((start id rx now : CpuTraced β σ R).run poll e₁).cpu.readyQueue,
        j ∈ ((start id rx now : CpuTraced β σ R).run poll e₁).inserted) →
      ∀ e₁ e₂, events = e₁ ++ e₂ → ∀ k ∈ ((start id rx now : CpuTraced β σ R).run poll e₁).dropped,
        ∃ l, ((start id rx now : CpuTraced β σ R).run poll events).polls =
          ((start id rx now : CpuTraced β σ R).run poll e₁).polls ++ l ∧ k ∉ l.map Prod.fst) ∧
    (∀ k ∈ ((start id rx now : CpuTraced β σ R).run poll events).inserted,
      CrossCpuMessage.cancelTask k ∉ rx.buffer → CpuEvent.send (.cancelTask k) ∉ events →
      k ∈ ((start id rx now : CpuTraced β σ R).run poll events).cpu.taskQueue ∨
        (k, Outcome.finished) ∈ ((start id rx now : CpuTraced β σ R).run poll events).polls) := by
  set s₀ := (start id rx now : CpuTraced β σ R)
  refine ⟨fun hq e₁ e₂ he k hk => ?_, fun k hk hrx hev => ?_⟩
  · -- The invariant up to the split, then the polls after it.
    have hfresh₁ : (s₀.run poll e₁).inserted.Nodup := by
      obtain ⟨l, hl⟩ : ∃ l, ((s₀.run poll e₁).run poll e₂).inserted = (s₀.run poll e₁).inserted ++ l :=
        inserted_run e₂
      rw [he, run_append, hl] at hfresh
      exact hfresh.of_append_left
    have h₁ : (s₀.run poll e₁).CancelInv :=
      ((cancelInv_start id rx now).run e₁ (fun a b hab => hq a (b ++ e₂) (by rw [he, hab,
        List.append_assoc])) hfresh₁).1
    have hq₂ : ∀ a b, e₂ = a ++ b → ((s₀.run poll e₁).run poll a).Queued := fun a b hab => by
      rw [← run_append]
      exact hq (e₁ ++ a) b (by rw [he, hab, List.append_assoc])
    rw [he, run_append] at hfresh ⊢
    exact (h₁.run e₂ hq₂ hfresh).2 k hk
  · have hkept : (s₀.run poll events).Kept k :=
      Kept.run ⟨hrx, List.not_mem_nil, fun hk => absurd hk List.not_mem_nil⟩ events hev
    exact hkept.live hk

theorem cancel_safe_cancel_live :
    ((start 0 Chan.new 0 : CpuTraced Unit Unit Unit).run (fun _ _ => ⟨.pending (), []⟩)
      [CpuEvent.send (.submitTask ⟨5⟩ ()), CpuEvent.receive, CpuEvent.send (.cancelTask ⟨5⟩),
        CpuEvent.receive, CpuEvent.pop]).inserted.Nodup ∧
    ((∀ e₁ e₂, [CpuEvent.send (.submitTask ⟨5⟩ ()), CpuEvent.receive, CpuEvent.send (.cancelTask ⟨5⟩),
          CpuEvent.receive, CpuEvent.pop] = e₁ ++ e₂ →
        ∀ j ∈ ((start 0 Chan.new 0 : CpuTraced Unit Unit Unit).run (fun _ _ => ⟨.pending (), []⟩)
          e₁).cpu.readyQueue,
        j ∈ ((start 0 Chan.new 0 : CpuTraced Unit Unit Unit).run (fun _ _ => ⟨.pending (), []⟩)
          e₁).inserted) →
      ∀ e₁ e₂, [CpuEvent.send (.submitTask ⟨5⟩ ()), CpuEvent.receive, CpuEvent.send (.cancelTask ⟨5⟩),
          CpuEvent.receive, CpuEvent.pop] = e₁ ++ e₂ →
        ∀ k ∈ ((start 0 Chan.new 0 : CpuTraced Unit Unit Unit).run (fun _ _ => ⟨.pending (), []⟩)
          e₁).dropped,
        ∃ l, ((start 0 Chan.new 0 : CpuTraced Unit Unit Unit).run (fun _ _ => ⟨.pending (), []⟩)
            [CpuEvent.send (.submitTask ⟨5⟩ ()), CpuEvent.receive, CpuEvent.send (.cancelTask ⟨5⟩),
              CpuEvent.receive, CpuEvent.pop]).polls =
          ((start 0 Chan.new 0 : CpuTraced Unit Unit Unit).run (fun _ _ => ⟨.pending (), []⟩)
            e₁).polls ++ l ∧ k ∉ l.map Prod.fst) ∧
    (∀ k ∈ ((start 0 Chan.new 0 : CpuTraced Unit Unit Unit).run (fun _ _ => ⟨.pending (), []⟩)
        [CpuEvent.send (.submitTask ⟨5⟩ ()), CpuEvent.receive, CpuEvent.send (.cancelTask ⟨5⟩),
          CpuEvent.receive, CpuEvent.pop]).inserted,
      CrossCpuMessage.cancelTask k ∉ (Chan.new : Chan (CrossCpuMessage Unit)).buffer →
      CpuEvent.send (.cancelTask k) ∉ ([CpuEvent.send (.submitTask ⟨5⟩ ()), CpuEvent.receive,
        CpuEvent.send (.cancelTask ⟨5⟩), CpuEvent.receive, CpuEvent.pop] : List (CpuEvent Unit Unit)) →
      k ∈ ((start 0 Chan.new 0 : CpuTraced Unit Unit Unit).run (fun _ _ => ⟨.pending (), []⟩)
          [CpuEvent.send (.submitTask ⟨5⟩ ()), CpuEvent.receive, CpuEvent.send (.cancelTask ⟨5⟩),
            CpuEvent.receive, CpuEvent.pop]).cpu.taskQueue ∨
        (k, Outcome.finished) ∈ ((start 0 Chan.new 0 : CpuTraced Unit Unit Unit).run
          (fun _ _ => ⟨.pending (), []⟩) [CpuEvent.send (.submitTask ⟨5⟩ ()), CpuEvent.receive,
            CpuEvent.send (.cancelTask ⟨5⟩), CpuEvent.receive, CpuEvent.pop]).polls) :=
  ⟨by decide, cancel_safe _ 0 Chan.new 0 _ (by decide)⟩

end CpuTraced

end Miniss
