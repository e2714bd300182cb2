import Miniss.Data.Loop
import Miniss.Runtime.Task

/-!
# The executor

`Executor` (`src/executor.rs`): the tasks by id, the ready queue, and the
counter the ids of spawned tasks are drawn from, starting at `1`. The ready
queue is a `SegQueue<TaskId>` shared with the wakers of the tasks: a waker
pushes its task's id at the back (`MinissWaker::wake_impl`), `tick` pops at the
front. Beside them the model keeps the channels of the tasks' handles, keyed by
task id: each is shared between the future of its task, which holds the sender,
and the task's `JoinHandle`.

`tick` pops ids until the queue is empty. The task of a popped id, if it is
still in the map, is taken out and polled under `catch_unwind`
(`runTask`): put back if pending, dropped if ready or panicked; an id whose task
is gone is skipped. Its `while let` loop is `loop` on `tickRound`, so a `tick`
that never empties its queue never returns (`tick_eq_none`). `run` ticks while
tasks remain.

The futures are left abstract (`poll`, see `Miniss.Runtime.Task`). The counter
is a plain number: wrapping round `2 ^ 64` takes `2 ^ 64` spawns.
-/

namespace Miniss

/-- The state of an `Executor`, with the channels of its tasks' handles. -/
structure Executor (β σ : Type*) where
  tasks : AList (fun _ : TaskId => σ)
  readyQueue : List TaskId
  nextTaskId : Nat
  channels : TaskId → Chan (TaskResult β)

namespace Executor

variable {β σ : Type*}

/-- `Executor::new`. -/
def new : Executor β σ where
  tasks := ∅
  readyQueue := []
  nextTaskId := 1
  channels := fun _ => Chan.new

/-- `Executor::spawn`: a fresh id from the counter, a new channel for the
    handle, and the task in the map with its id pushed on the ready queue. -/
def spawn (e : Executor β σ) (future : σ) : Executor β σ × JoinHandle :=
  let taskId : TaskId := ⟨e.nextTaskId⟩
  ({ tasks := e.tasks.insert taskId future
     readyQueue := e.readyQueue ++ [taskId]
     nextTaskId := e.nextTaskId + 1
     channels := Function.update e.channels taskId Chan.new }, ⟨taskId⟩)

/-- `MinissWaker::wake_impl` on the queue of the executor: push the id. -/
def wake (e : Executor β σ) (taskId : TaskId) : Executor β σ :=
  { e with readyQueue := e.readyQueue ++ [taskId] }

/-- `Executor::task_count`. -/
def taskCount (e : Executor β σ) : Nat := e.tasks.entries.length

variable (poll : σ → TaskId → PollStep β σ)

/-- The body of `if let Some(mut task) = self.tasks.remove(&task_id)` in `tick`:
    the task is polled with a waker for its id, put back if pending, and the
    result of the poll settles the channel of its handle; whether a task was
    polled. -/
def runTask (e : Executor β σ) (taskId : TaskId) : Executor β σ × Bool :=
  match e.tasks.lookup taskId with
  | none => (e, false)
  | some task =>
    let step := poll task taskId
    let tasks := e.tasks.erase taskId
    ({ tasks := match step.result with
         | .pending task => tasks.insert taskId task
         | _ => tasks
       readyQueue := e.readyQueue ++ step.wakes
       nextTaskId := e.nextTaskId
       channels := Function.update e.channels taskId (settle (e.channels taskId) step.result) },
      true)

/-- One round of the `while let Some(task_id) = self.ready_queue.pop()` loop of
    `tick`, with `made_progress`. -/
def tickRound (st : Executor β σ × Bool) : (Executor β σ × Bool) ⊕ (Executor β σ × Bool) :=
  match st.1.readyQueue with
  | [] => .inr st
  | taskId :: rest =>
    let r := runTask poll { st.1 with readyQueue := rest } taskId
    .inl (r.1, st.2 || r.2)

/-- `Executor::tick`, for at most `fuel` rounds. -/
def tick (fuel : Nat) (e : Executor β σ) : Option (Executor β σ × Bool) :=
  loop (tickRound poll) fuel (e, false)

/-- `Executor::run`: `tick` while the map holds tasks, for at most `fuel` ticks
    of at most `fuel` rounds each. -/
def run : Nat → Executor β σ → Option (Executor β σ)
  | 0, _ => none
  | fuel + 1, e =>
    if e.tasks.entries = [] then some e
    else (tick poll fuel e).bind fun r => run fuel r.1

/-! ## One round -/

variable {poll} {e : Executor β σ} {taskId j : TaskId} {task : σ}

theorem runTask_of_lookup_none (h : e.tasks.lookup taskId = none) :
    runTask poll e taskId = (e, false) := by
  rw [runTask, h]

theorem runTask_of_lookup_some (h : e.tasks.lookup taskId = some task) :
    runTask poll e taskId =
      ({ tasks := match (poll task taskId).result with
           | .pending task => (e.tasks.erase taskId).insert taskId task
           | _ => e.tasks.erase taskId
         readyQueue := e.readyQueue ++ (poll task taskId).wakes
         nextTaskId := e.nextTaskId
         channels := Function.update e.channels taskId
           (settle (e.channels taskId) (poll task taskId).result) }, true) := by
  rw [runTask, h]

@[simp] theorem runTask_nextTaskId : (runTask poll e taskId).1.nextTaskId = e.nextTaskId := by
  unfold runTask
  split <;> rfl

/-- A round leaves the other tasks as they are. -/
theorem lookup_runTask_of_ne (hj : j ≠ taskId) :
    (runTask poll e taskId).1.tasks.lookup j = e.tasks.lookup j := by
  cases h : e.tasks.lookup taskId with
  | none => rw [runTask_of_lookup_none h]
  | some task =>
    rw [runTask_of_lookup_some h]
    dsimp only
    split <;> simp [AList.lookup_insert_ne hj, AList.lookup_erase_ne hj]

/-- A round leaves the channels of the other tasks as they are. -/
theorem channels_runTask_of_ne (hj : j ≠ taskId) :
    (runTask poll e taskId).1.channels j = e.channels j := by
  cases h : e.tasks.lookup taskId with
  | none => rw [runTask_of_lookup_none h]
  | some task =>
    rw [runTask_of_lookup_some h]
    exact Function.update_of_ne hj _ _

/-- The poll of a task settles the channel of its handle. -/
theorem channels_runTask_self (h : e.tasks.lookup taskId = some task) :
    (runTask poll e taskId).1.channels taskId = settle (e.channels taskId) (poll task taskId).result := by
  rw [runTask_of_lookup_some h]
  exact Function.update_self _ _ _

/-- A round only pushes onto the ready queue. -/
theorem readyQueue_runTask : ∃ ws, (runTask poll e taskId).1.readyQueue = e.readyQueue ++ ws := by
  cases h : e.tasks.lookup taskId with
  | none => exact ⟨[], by rw [runTask_of_lookup_none h, List.append_nil]⟩
  | some task => exact ⟨_, by rw [runTask_of_lookup_some h]⟩

/-- After its poll, a task is in the map iff the poll left it pending. -/
theorem mem_runTask_tasks (h : e.tasks.lookup taskId = some task) :
    j ∈ (runTask poll e taskId).1.tasks ↔
      j ∈ e.tasks ∧ (j = taskId → (poll task taskId).result.outcome = .pending) := by
  rw [runTask_of_lookup_some h]
  have hmem : taskId ∈ e.tasks := AList.lookup_isSome.1 (by simp [h])
  by_cases hj : j = taskId
  · subst hj
    cases (poll task j).result <;> simp [PollResult.outcome, AList.mem_insert, hmem]
  · cases (poll task taskId).result <;> simp [AList.mem_insert, AList.mem_erase, hj]

/-! ## The loop -/

theorem tickRound_nil {st : Executor β σ × Bool} (h : st.1.readyQueue = []) :
    tickRound poll st = .inr st := by
  rw [tickRound, h]

theorem tickRound_cons {st : Executor β σ × Bool} {rest : List TaskId}
    (h : st.1.readyQueue = taskId :: rest) :
    tickRound poll st =
      .inl ((runTask poll { st.1 with readyQueue := rest } taskId).1,
        st.2 || (runTask poll { st.1 with readyQueue := rest } taskId).2) := by
  rw [tickRound, h]

/-- `tick` returns with an empty ready queue. -/
theorem readyQueue_tick {fuel : Nat} {r : Executor β σ × Bool} (h : tick poll fuel e = some r) :
    r.1.readyQueue = [] := by
  refine loop_spec (fun _ => True) (fun r => r.1.readyQueue = []) (fun _ _ _ _ => trivial)
    ?_ trivial h
  intro st r _ hst
  cases hq : st.1.readyQueue with
  | nil =>
    rw [tickRound_nil hq] at hst
    cases hst
    exact hq
  | cons taskId rest => rw [tickRound_cons hq] at hst; cases hst

/-- A `tick` whose queue holds a task that, from the states `S` of its future,
    stays pending and wakes itself on every poll never returns: each round
    either polls another task, leaving this one in the map and its id in the
    queue, or polls this one, which pushes its id back. -/
theorem tick_eq_none (S : Set σ) (k : TaskId)
    (hS : ∀ f ∈ S, ∃ f', (poll f k).result = .pending f' ∧ f' ∈ S ∧ k ∈ (poll f k).wakes)
    (hf : task ∈ S) (hl : e.tasks.lookup k = some task) (hq : k ∈ e.readyQueue) (fuel : Nat) :
    tick poll fuel e = none := by
  refine loop_eq_none (fun st => ∃ f ∈ S, st.1.tasks.lookup k = some f ∧ k ∈ st.1.readyQueue)
    ?_ ⟨task, hf, hl, hq⟩
  rintro ⟨e, b⟩ ⟨f, hf, hl, hq⟩
  obtain ⟨j, rest, hjr⟩ : ∃ j rest, e.readyQueue = j :: rest :=
    List.exists_cons_of_ne_nil (List.ne_nil_of_mem hq)
  refine ⟨_, tickRound_cons hjr, ?_⟩
  have hl' : ({ e with readyQueue := rest } : Executor β σ).tasks.lookup k = some f := hl
  by_cases hjk : j = k
  · -- The self-waking task is polled: it goes back into the map, and its id into the queue.
    subst hjk
    obtain ⟨f', hres, hf', hwake⟩ := hS f hf
    refine ⟨f', hf', ?_, ?_⟩ <;> rw [runTask_of_lookup_some hl'] <;> simp [hres, hwake]
  · -- Another task is polled: this one keeps its entry, and its id stays queued.
    obtain ⟨ws, hws⟩ : ∃ ws, (runTask poll { e with readyQueue := rest } j).1.readyQueue =
        rest ++ ws := readyQueue_runTask
    refine ⟨f, hf, by rw [lookup_runTask_of_ne (Ne.symm hjk)]; exact hl', ?_⟩
    rw [hws]
    rw [hjr] at hq
    exact List.mem_append_left _ ((List.mem_cons.1 hq).resolve_left (Ne.symm hjk))

end Executor

end Miniss
