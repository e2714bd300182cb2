import Miniss.Runtime.Executor

/-!
# Runs of the executor

What can happen to an `Executor` (`Event`): a `spawn`; a wake-up of a task
through a clone of its waker held elsewhere, which pushes its id on the ready
queue at any time, also between two rounds of a `tick`; a round of the loop of
`tick` (`pop`); and the calls on a task's `JoinHandle`. A `Traced` executor
keeps, beside the executor, a ghost record of its polls (which task, and whether
the poll left it pending), of the tasks woken since the start of their latest
poll, and of the tasks whose poll panicked.

A run refines a `Ledger` of the ready queue (`ledger_step`), so it keeps the
ledger's invariant, and the executor's own invariant `Traced.Inv`, along every
run (`Traced.Inv.run`):

* ids are drawn fresh: every id in the map or in the record is below the counter;
* the channel of a task in the map is as `spawn` made it; every channel holds
  nothing or, with its sender gone, the value of its finished task;
* the channel of a task whose poll panicked is disconnected.

A `tick` is a run of rounds (`tick_eq_run_pops`).
-/

namespace Miniss

/-- What can happen to an executor. -/
inductive Event (σ : Type*) where
  | spawn (future : σ)
  | wake (taskId : TaskId)
  | pop
  | isFinished (taskId : TaskId)
  | cancel (taskId : TaskId)
  | join (taskId : TaskId)

/-- An executor with the ghost record of its polls and wakes. -/
structure Traced (β σ : Type*) where
  exec : Executor β σ
  polls : List (TaskId × Outcome)
  woken : List TaskId
  panicked : List TaskId

namespace Traced

variable {β σ : Type*}

/-- A new executor, with an empty record. -/
def start : Traced β σ := ⟨.new, [], [], []⟩

/-- A call on the handle of `taskId`, as what it does to the handle's channel. -/
def observe (s : Traced β σ) (taskId : TaskId) (f : Chan (TaskResult β) → Chan (TaskResult β)) :
    Traced β σ :=
  { s with exec := { s.exec with
      channels := Function.update s.exec.channels taskId (f (s.exec.channels taskId)) } }

variable (poll : σ → TaskId → PollStep β σ)

/-- One event. -/
def step (s : Traced β σ) : Event σ → Traced β σ
  | .spawn future => { s with exec := (s.exec.spawn future).1 }
  | .wake taskId => { s with exec := s.exec.wake taskId, woken := s.woken ++ [taskId] }
  | .pop =>
    match s.exec.readyQueue with
    | [] => s
    | taskId :: rest =>
      let e := { s.exec with readyQueue := rest }
      match e.tasks.lookup taskId with
      | none => { s with exec := e }
      | some task =>
        let ps := poll task taskId
        { exec := (e.runTask poll taskId).1
          polls := s.polls ++ [(taskId, ps.result.outcome)]
          woken := s.woken.filter (· ≠ taskId) ++ ps.wakes
          panicked := if ps.result.isPanicked then s.panicked ++ [taskId] else s.panicked }
  | .isFinished taskId => s.observe taskId fun c => (JoinHandle.isFinished c).2
  | .cancel taskId => s.observe taskId JoinHandle.cancel
  | .join taskId => s.observe taskId fun c => (JoinHandle.poll c).2

/-- A run of events. -/
def run (s : Traced β σ) (events : List (Event σ)) : Traced β σ := events.foldl (step poll) s

/-- The ledger of the ready queue of a traced executor. -/
def ledger (s : Traced β σ) : Ledger TaskId where
  live := {k | k ∈ s.exec.tasks}
  queue := s.exec.readyQueue
  polls := s.polls
  woken := {k | k ∈ s.woken}
  dropped := ∅

/-- The invariant of a traced executor. -/
structure Inv (s : Traced β σ) : Prop where
  ledger : s.ledger.Inv
  tasks_lt : ∀ k ∈ s.exec.tasks, k.val < s.exec.nextTaskId
  polls_lt : ∀ p ∈ s.polls, p.1.val < s.exec.nextTaskId
  live_channel : ∀ k ∈ s.exec.tasks, s.exec.channels k = Chan.new
  channel_shape : ∀ k, (s.exec.channels k).buffer = [] ∨ ∃ v, s.exec.channels k = ⟨[.ok v], false⟩
  panicked_disconnected : ∀ k ∈ s.panicked, (s.exec.channels k).Disconnected
  panicked_finished : ∀ k ∈ s.panicked, (k, Outcome.finished) ∈ s.polls
  fresh_channel : ∀ k : TaskId, s.exec.nextTaskId ≤ k.val → s.exec.channels k = Chan.new

variable {poll} {s : Traced β σ} {taskId : TaskId} {rest : List TaskId} {task : σ}

theorem run_append (events events' : List (Event σ)) :
    s.run poll (events ++ events') = (s.run poll events).run poll events' := by
  simp [run, List.foldl_append]

theorem step_pop_of_lookup_none (hq : s.exec.readyQueue = taskId :: rest)
    (hl : s.exec.tasks.lookup taskId = none) :
    s.step poll .pop = { s with exec := { s.exec with readyQueue := rest } } := by
  simp only [step, hq]
  rw [show ({ s.exec with readyQueue := rest } : Executor β σ).tasks = s.exec.tasks from rfl, hl]

theorem step_pop_of_lookup_some (hq : s.exec.readyQueue = taskId :: rest)
    (hl : s.exec.tasks.lookup taskId = some task) :
    s.step poll .pop =
      { exec := ({ s.exec with readyQueue := rest }.runTask poll taskId).1
        polls := s.polls ++ [(taskId, (poll task taskId).result.outcome)]
        woken := s.woken.filter (· ≠ taskId) ++ (poll task taskId).wakes
        panicked := if (poll task taskId).result.isPanicked then s.panicked ++ [taskId]
          else s.panicked } := by
  simp only [step, hq]
  rw [show ({ s.exec with readyQueue := rest } : Executor β σ).tasks = s.exec.tasks from rfl, hl]

@[simp] theorem step_isFinished :
    s.step poll (.isFinished taskId) = s.observe taskId fun c => c.tryRecv.2 := by
  simp [step]

@[simp] theorem step_cancel : s.step poll (.cancel taskId) = s.observe taskId fun c => c.tryRecv.2 := by
  simp only [step]
  congr 1
  exact funext fun _ => JoinHandle.cancel_eq

@[simp] theorem step_join : s.step poll (.join taskId) = s.observe taskId fun c => c.tryRecv.2 := by
  simp [step]

/-! ## The ledger -/

theorem ledger_start : (start : Traced β σ).ledger = Ledger.empty := by
  simp only [ledger, start, Executor.new, Ledger.empty]
  congr 1
  · ext k
    simp [AList.mem_keys]
  · ext k
    simp

theorem ledger_spawn (future : σ) :
    (s.step poll (.spawn future)).ledger = s.ledger.add ⟨s.exec.nextTaskId⟩ := by
  simp only [step, ledger, Executor.spawn, Ledger.add]
  congr 1
  ext k
  simp [AList.mem_insert]

theorem ledger_wake : (s.step poll (.wake taskId)).ledger = s.ledger.wakes [taskId] := by
  simp only [step, ledger, Executor.wake, Ledger.wakes]
  congr 1
  ext k
  simp [or_comm]

theorem ledger_pop_of_lookup_none (hq : s.exec.readyQueue = taskId :: rest)
    (hl : s.exec.tasks.lookup taskId = none) : (s.step poll .pop).ledger = s.ledger.skip := by
  rw [step_pop_of_lookup_none hq hl]
  simp [ledger, Ledger.skip, hq]

theorem ledger_pop_of_lookup_some (hq : s.exec.readyQueue = taskId :: rest)
    (hl : s.exec.tasks.lookup taskId = some task) :
    (s.step poll .pop).ledger =
      s.ledger.poll taskId (poll task taskId).result.outcome (poll task taskId).wakes := by
  rw [step_pop_of_lookup_some hq hl]
  have hl' : ({ s.exec with readyQueue := rest } : Executor β σ).tasks.lookup taskId = some task := hl
  simp only [ledger, Ledger.poll, hq, List.tail_cons]
  congr 1
  · ext k
    rw [Set.mem_ofPred_eq, Executor.mem_runTask_tasks hl']
    by_cases ho : (poll task taskId).result.outcome = .pending
    · simp [ho]
    · simp [ho]
  · rw [Executor.runTask_of_lookup_some hl']
  · ext k
    simp [and_comm]

theorem ledger_observe {f : Chan (TaskResult β) → Chan (TaskResult β)} :
    (s.observe taskId f).ledger = s.ledger := rfl

/-! ## The invariant -/

theorem inv_start : (start : Traced β σ).Inv where
  ledger := ledger_start ▸ Ledger.inv_empty
  tasks_lt _ hk := absurd hk (AList.notMem_empty _)
  polls_lt _ hp := absurd hp List.not_mem_nil
  live_channel _ hk := absurd hk (AList.notMem_empty _)
  channel_shape _ := .inl rfl
  panicked_disconnected _ hk := absurd hk List.not_mem_nil
  panicked_finished _ hk := absurd hk List.not_mem_nil
  fresh_channel _ _ := rfl

theorem Inv.spawn (h : s.Inv) (future : σ) : (s.step poll (.spawn future)).Inv := by
  -- The new id is the counter, above every id met so far.
  have hfresh : ∀ k : TaskId, k.val < s.exec.nextTaskId → k ≠ ⟨s.exec.nextTaskId⟩ := by
    rintro k hk rfl
    exact lt_irrefl _ hk
  refine ⟨ledger_spawn future ▸ h.ledger.add fun hp => ?_, ?_, ?_, ?_, ?_, ?_, h.panicked_finished,
    ?_⟩
  · exact lt_irrefl _ (h.polls_lt _ hp)
  · intro k hk
    rcases (AList.mem_insert _).1 hk with rfl | hk
    · exact Nat.lt_succ_self _
    · exact Nat.lt_succ_of_lt (h.tasks_lt k hk)
  · exact fun p hp => Nat.lt_succ_of_lt (h.polls_lt p hp)
  · intro k hk
    rcases (AList.mem_insert _).1 hk with rfl | hk
    · exact Function.update_self _ _ _
    · exact (Function.update_of_ne (hfresh k (h.tasks_lt k hk)) _ _).trans (h.live_channel k hk)
  · intro k
    by_cases hk : k = ⟨s.exec.nextTaskId⟩
    · subst hk
      exact .inl (by simp [step, Executor.spawn, Chan.new])
    · simpa [step, Executor.spawn, Function.update_of_ne hk] using h.channel_shape k
  · intro k hk
    have hne := hfresh k (h.polls_lt _ (h.panicked_finished k hk))
    simpa [step, Executor.spawn, Function.update_of_ne hne] using h.panicked_disconnected k hk
  · intro k hk
    have hne : k ≠ ⟨s.exec.nextTaskId⟩ := by
      rintro rfl
      exact absurd hk (Nat.not_succ_le_self _)
    simpa [step, Executor.spawn, Function.update_of_ne hne] using
      h.fresh_channel k (Nat.le_of_succ_le hk)

theorem Inv.wake (h : s.Inv) (taskId : TaskId) : (s.step poll (.wake taskId)).Inv :=
  ⟨ledger_wake ▸ h.ledger.wakes [taskId], h.tasks_lt, h.polls_lt, h.live_channel, h.channel_shape,
    h.panicked_disconnected, h.panicked_finished, h.fresh_channel⟩

theorem Inv.pop_of_lookup_none (h : s.Inv) (hq : s.exec.readyQueue = taskId :: rest)
    (hl : s.exec.tasks.lookup taskId = none) : (s.step poll .pop).Inv := by
  have hled : (s.step poll .pop).ledger = s.ledger.skip := ledger_pop_of_lookup_none hq hl
  rw [step_pop_of_lookup_none hq hl] at hled ⊢
  exact ⟨hled ▸ h.ledger.skip hq (AList.lookup_eq_none.1 hl), h.tasks_lt, h.polls_lt,
    h.live_channel, h.channel_shape, h.panicked_disconnected, h.panicked_finished, h.fresh_channel⟩

/-- A task whose poll panicked is not in the map. -/
theorem Inv.panicked_ne (h : s.Inv) (hk : taskId ∈ s.exec.tasks) {j : TaskId}
    (hj : j ∈ s.panicked) : j ≠ taskId := by
  rintro rfl
  exact h.ledger.finished_not_live j hk (h.panicked_finished j hj)

theorem Inv.pop_of_lookup_some (h : s.Inv) (hq : s.exec.readyQueue = taskId :: rest)
    (hl : s.exec.tasks.lookup taskId = some task) : (s.step poll .pop).Inv := by
  have hk : taskId ∈ s.exec.tasks := AList.lookup_isSome.1 (by simp [hl])
  have hl' : ({ s.exec with readyQueue := rest } : Executor β σ).tasks.lookup taskId = some task := hl
  have hmem : ∀ j, j ∈ (Executor.runTask poll { s.exec with readyQueue := rest } taskId).1.tasks ↔
      j ∈ s.exec.tasks ∧ (j = taskId → (poll task taskId).result.outcome = .pending) :=
    fun _ => Executor.mem_runTask_tasks hl'
  have hself : (Executor.runTask poll { s.exec with readyQueue := rest } taskId).1.channels taskId =
      settle (s.exec.channels taskId) (poll task taskId).result :=
    Executor.channels_runTask_self hl'
  have hled : (s.step poll .pop).ledger = _ := ledger_pop_of_lookup_some hq hl
  rw [step_pop_of_lookup_some hq hl] at hled ⊢
  refine ⟨hled ▸ h.ledger.poll _ _ hq hk, ?_, ?_, ?_, ?_, ?_, ?_, ?_⟩
  · intro j hj
    rw [Executor.runTask_nextTaskId]
    exact h.tasks_lt j ((hmem j).1 hj).1
  · intro p hp
    rw [Executor.runTask_nextTaskId]
    rcases List.mem_append.1 hp with hp | hp
    · exact h.polls_lt p hp
    · rw [List.mem_singleton.1 hp]
      exact h.tasks_lt taskId hk
  · -- The polled task stays only if pending, with its channel untouched.
    intro j hj
    obtain ⟨hj, hpend⟩ := (hmem j).1 hj
    by_cases hjk : j = taskId
    · subst hjk
      rw [hself, settle_of_pending (hpend rfl)]
      exact h.live_channel j hk
    · rw [Executor.channels_runTask_of_ne hjk]
      exact h.live_channel j hj
  · intro j
    by_cases hjk : j = taskId
    · subst hjk
      rw [hself, h.live_channel j hk]
      exact settle_new_shape
    · rw [Executor.channels_runTask_of_ne hjk]
      exact h.channel_shape j
  · -- A panicked task is disconnected: the new one by its poll, the old ones untouched.
    intro j hj
    by_cases hjk : j = taskId
    · subst hjk
      have hpan : (poll task j).result.isPanicked = true := by
        by_contra hpan
        rw [if_neg hpan] at hj
        exact h.panicked_ne hk hj rfl
      rw [hself, settle_of_isPanicked hpan, h.live_channel j hk]
      exact ⟨rfl, rfl⟩
    · rw [Executor.channels_runTask_of_ne hjk]
      have hj' : j ∈ s.panicked := by
        split_ifs at hj
        · exact (List.mem_append.1 hj).resolve_right (by simpa using hjk)
        · exact hj
      exact h.panicked_disconnected j hj'
  · intro j hj
    split_ifs at hj with hpan
    · rcases List.mem_append.1 hj with hj | hj
      · exact List.mem_append_left _ (h.panicked_finished j hj)
      · rw [List.mem_singleton.1 hj, ← PollResult.outcome_of_isPanicked hpan]
        exact List.mem_append_right _ (List.mem_singleton_self _)
    · exact List.mem_append_left _ (h.panicked_finished j hj)
  · -- The polled task has an id below the counter.
    intro j hj
    rw [Executor.runTask_nextTaskId] at hj
    have hjk : j ≠ taskId := by
      rintro rfl
      exact absurd (h.tasks_lt j hk) (Nat.not_lt.2 hj)
    rw [Executor.channels_runTask_of_ne hjk]
    exact h.fresh_channel j hj

theorem Inv.pop (h : s.Inv) : (s.step poll .pop).Inv := by
  cases hq : s.exec.readyQueue with
  | nil => simpa [step, hq] using h
  | cons taskId rest =>
    cases hl : s.exec.tasks.lookup taskId with
    | none => exact h.pop_of_lookup_none hq hl
    | some task => exact h.pop_of_lookup_some hq hl

/-- The calls on a handle receive from its channel, which keeps its shape. -/
theorem Inv.observe (h : s.Inv) (taskId : TaskId) : (s.observe taskId fun c => c.tryRecv.2).Inv := by
  refine ⟨h.ledger, h.tasks_lt, h.polls_lt, ?_, ?_, ?_, h.panicked_finished, ?_⟩
  · intro j hj
    by_cases hjk : j = taskId
    · subst hjk
      simp only [Traced.observe, Function.update_self]
      rw [h.live_channel j hj]
      rfl
    · simpa [Traced.observe, Function.update_of_ne hjk] using h.live_channel j hj
  · intro j
    by_cases hjk : j = taskId
    · subst hjk
      simp only [Traced.observe, Function.update_self]
      rcases h.channel_shape j with hb | ⟨v, hv⟩
      · exact .inl (by rw [Chan.tryRecv_snd_of_nil hb]; exact hb)
      · rw [hv]
        exact .inl rfl
    · simpa [Traced.observe, Function.update_of_ne hjk] using h.channel_shape j
  · intro j hj
    by_cases hjk : j = taskId
    · subst hjk
      simp only [Traced.observe, Function.update_self]
      rw [Chan.tryRecv_of_disconnected (h.panicked_disconnected j hj)]
      exact h.panicked_disconnected j hj
    · simpa [Traced.observe, Function.update_of_ne hjk] using h.panicked_disconnected j hj
  · intro j hj
    by_cases hjk : j = taskId
    · subst hjk
      simp only [Traced.observe, Function.update_self]
      rw [h.fresh_channel j hj]
      rfl
    · simpa [Traced.observe, Function.update_of_ne hjk] using h.fresh_channel j hj

theorem Inv.step (h : s.Inv) : ∀ ev : Event σ, (s.step poll ev).Inv
  | .spawn future => h.spawn future
  | .wake taskId => h.wake taskId
  | .pop => h.pop
  | .isFinished taskId => step_isFinished ▸ h.observe taskId
  | .cancel taskId => step_cancel ▸ h.observe taskId
  | .join taskId => step_join ▸ h.observe taskId

/-- The invariant holds along every run. -/
theorem Inv.run (h : s.Inv) (events : List (Event σ)) : (s.run poll events).Inv := by
  induction events using List.reverseRecOn with
  | nil => exact h
  | append_singleton events ev ih =>
    rw [run_append]
    exact ih.step ev

/-! ## What the invariant gives -/

/-- A round of `tick` is the `pop` event. -/
theorem exec_step_pop_of_cons (hq : s.exec.readyQueue = taskId :: rest) :
    (s.step poll .pop).exec = (Executor.runTask poll { s.exec with readyQueue := rest } taskId).1 := by
  cases hl : s.exec.tasks.lookup taskId with
  | none =>
    rw [step_pop_of_lookup_none hq hl,
      Executor.runTask_of_lookup_none (e := { s.exec with readyQueue := rest }) hl]
  | some task => rw [step_pop_of_lookup_some hq hl]

/-- A `tick` that returns has run a number of rounds, each a `pop`. -/
theorem tick_eq_run_pops {fuel : Nat} {r : Executor β σ × Bool}
    (h : Executor.tick poll fuel s.exec = some r) :
    ∃ n, (s.run poll (List.replicate n .pop)).exec = r.1 := by
  refine loop_spec (fun st => ∃ n, (s.run poll (List.replicate n .pop)).exec = st.1)
    (fun r => ∃ n, (s.run poll (List.replicate n .pop)).exec = r.1) ?_ ?_ ⟨0, rfl⟩ h
  · rintro ⟨e, b⟩ st' ⟨n, hn⟩ hst
    dsimp only at hn
    subst hn
    cases hq : (s.run poll (List.replicate n .pop)).exec.readyQueue with
    | nil => rw [Executor.tickRound_nil hq] at hst; cases hst
    | cons taskId rest =>
      rw [Executor.tickRound_cons hq] at hst
      cases hst
      refine ⟨n + 1, ?_⟩
      rw [List.replicate_succ', run_append]
      exact exec_step_pop_of_cons hq
  · intro st r hP hst
    cases hq : st.1.readyQueue with
    | nil => rw [Executor.tickRound_nil hq] at hst; cases hst; exact hP
    | cons _ _ => rw [Executor.tickRound_cons hq] at hst; cases hst

/-- Along every run from a new executor: no task is polled after a poll that
    finished it; a task whose latest poll returned pending is in the map; a task
    in the map woken since the start of its latest poll has its id in the ready
    queue. -/
theorem schedule_safe (events : List (Event σ)) :
    let s := (start : Traced β σ).run poll events
    (∀ l₁ k l₂, s.polls = l₁ ++ (k, Outcome.finished) :: l₂ → k ∉ l₂.map Prod.fst) ∧
    (∀ l₁ k l₂, s.polls = l₁ ++ (k, Outcome.pending) :: l₂ → k ∉ l₂.map Prod.fst → k ∈ s.exec.tasks) ∧
    (∀ k ∈ s.exec.tasks, k ∈ s.woken → k ∈ s.exec.readyQueue) := by
  intro s
  have h : s.Inv := inv_start.run events
  refine ⟨h.ledger.no_poll_after_finished, fun l₁ k l₂ hp hk => ?_, h.ledger.woken_queued⟩
  -- Nothing is ever dropped from the map of an executor without a poll.
  exact (h.ledger.pending_live l₁ k l₂ hp hk).resolve_right (Set.notMem_empty k)

end Traced

end Miniss
