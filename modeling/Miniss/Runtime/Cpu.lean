import Miniss.Data.Loop
import Miniss.Runtime.Task
import Miniss.Io.State
import Miniss.Timer.Operations

/-!
# A CPU of the thread-per-core runtime

`Cpu` (`src/cpu.rs`): the tasks by id, the ready queue, the receiving end of
its message channel, the counter of the ids of its local spawns — starting at
the CPU's id shifted left by 32 bits —, a timer wheel whose wakers wake tasks
of this CPU, whether it runs, its I/O state, and the ids of the tasks to cancel.
As for the executor, the model keeps beside them the channels of the handles of
its spawned tasks.

* `handleMessage`: `SubmitTask` inserts the task and queues its id — a
  `HashMap` insert, which drops any task already under that id —, `Shutdown`
  stops the CPU, `CancelTask` marks the id and removes its task;
* `tick`: messages, then expired timers, then the ready queue until empty —
  skipping and forgetting a cancelled id, polling the task of any other id in
  the map, with no `catch_unwind` —, then the I/O completions the backend hands
  over.

A panic in a task's poll unwinds out of `tick`: the result of a round or of a
`tick` is then `Except.error` with the task's id. The instant of `tick` and the
backend's batch of completions are inputs. Other threads reach a CPU only
through its channel and through wakers; the lock of `cancelled_tasks` is taken
as never poisoned. The counters are plain numbers.
-/

namespace Miniss

/-- `CrossCpuMessage`. -/
inductive CrossCpuMessage (σ : Type*) where
  | submitTask (taskId : TaskId) (task : σ)
  | shutdown
  | ping (replyTo : Nat)
  | cancelTask (taskId : TaskId)

/-- The state of a `Cpu`, with the channels of its spawned tasks' handles. -/
structure Cpu (β σ R : Type*) where
  id : Nat
  taskQueue : AList (fun _ : TaskId => Task σ)
  readyQueue : List TaskId
  messageReceiver : Chan (CrossCpuMessage σ)
  nextTaskId : Nat
  timer : TimerWheel TaskId
  running : Bool
  ioState : CpuIoState TaskId R
  cancelledTasks : List TaskId
  channels : TaskId → Chan (TaskResult β)

/-- `GLOBAL_TASK_ID_COUNTER` starts at `1`. -/
def globalTaskIdStart : Nat := 1

/-- `generate_global_task_id`: the value of the global counter, which moves on by one. -/
def generateGlobalTaskId (counter : Nat) : TaskId × Nat := (⟨counter⟩, counter + 1)

/-- `CpuHandle::submit_task`: a global id for the task, sent in a `SubmitTask`. -/
def submitTask {σ : Type*} (sender : Chan (CrossCpuMessage σ)) (task : σ) (counter : Nat) :
    Chan (CrossCpuMessage σ) × TaskId × Nat :=
  let r := generateGlobalTaskId counter
  (sender.send (.submitTask r.1 task), r.1, r.2)

namespace Cpu

variable {β σ R : Type*}

/-- `Cpu::new(id, receiver, backend)`, created at the instant `now`: its counter
    at `(id as u64) << 32`, its timer wheel `TimerWheel::default()`. -/
def new (id : Nat) (messageReceiver : Chan (CrossCpuMessage σ)) (now : Instant) : Cpu β σ R where
  id := id
  taskQueue := ∅
  readyQueue := []
  messageReceiver := messageReceiver
  nextTaskId := asU64 (id * 2 ^ 32)
  timer := TimerWheel.new 4096 1 now
  running := true
  ioState := CpuIoState.new
  cancelledTasks := []
  channels := fun _ => Chan.new

/-- `task_queue.insert(task.id, task)`: a task already under the id is dropped. -/
def insertTask (cpu : Cpu β σ R) (task : Task σ) : Cpu β σ R :=
  { cpu with
    taskQueue := cpu.taskQueue.insert task.id task
    channels := match cpu.taskQueue.lookup task.id with
      | some old => dropTask cpu.channels old
      | none => cpu.channels }

/-- `task_queue.remove(&task_id)`, the task removed being dropped. -/
def removeTask (cpu : Cpu β σ R) (taskId : TaskId) : Cpu β σ R :=
  { cpu with
    taskQueue := cpu.taskQueue.erase taskId
    channels := match cpu.taskQueue.lookup taskId with
      | some old => dropTask cpu.channels old
      | none => cpu.channels }

/-- `Cpu::spawn`: an id from the CPU's counter, a new channel for the handle,
    and the wrapped task inserted with its id pushed on the ready queue. -/
def spawn (cpu : Cpu β σ R) (future : σ) : Cpu β σ R × JoinHandle :=
  let taskId : TaskId := ⟨cpu.nextTaskId⟩
  let inserted := cpu.insertTask ⟨taskId, future, true⟩
  ({ inserted with
      nextTaskId := cpu.nextTaskId + 1
      readyQueue := cpu.readyQueue ++ [taskId]
      channels := Function.update inserted.channels taskId Chan.new }, ⟨taskId⟩)

/-- `Cpu::handle_message`. -/
def handleMessage (cpu : Cpu β σ R) : CrossCpuMessage σ → Cpu β σ R
  | .submitTask taskId task =>
    { cpu.insertTask ⟨taskId, task, false⟩ with readyQueue := cpu.readyQueue ++ [taskId] }
  | .shutdown => { cpu with running := false }
  | .ping _ => cpu
  | .cancelTask taskId =>
    { cpu.removeTask taskId with cancelledTasks := cpu.cancelledTasks.insert taskId }

/-- `Cpu::process_messages`: every message in the channel, front first. -/
def processMessages (cpu : Cpu β σ R) : Cpu β σ R :=
  cpu.messageReceiver.buffer.foldl handleMessage
    { cpu with messageReceiver := { cpu.messageReceiver with buffer := [] } }

/-- The timers of `tick`: `timer.expire(now, &mut ready_wakers)`, each waker
    woken; whether any was. -/
def expireTimers (cpu : Cpu β σ R) (now : Instant) : Option (Cpu β σ R × Bool) :=
  (cpu.timer.expire now []).map fun r =>
    ({ cpu with timer := r.1, readyQueue := cpu.readyQueue ++ r.2 }, !r.2.isEmpty)

/-- `Cpu::poll_io_completions`, given what the backend's `poll_complete` returned
    (`none` for `Pending`): the completions delivered, and the tasks whose wakers
    they took woken. -/
def pollIoCompletions (cpu : Cpu β σ R) : Option (List (IoToken × R)) → Cpu β σ R × Bool
  | some completions =>
    if completions.isEmpty then (cpu, false)
    else
      let r := cpu.ioState.deliver completions
      ({ cpu with ioState := r.1, readyQueue := cpu.readyQueue ++ r.2 }, true)
  | none => (cpu, false)

/-- `Cpu::schedule_timer`: a timer at `instant` whose waker wakes `taskId`, its
    `TimerId` drawn from the global counter at `counter`. -/
def scheduleTimer (cpu : Cpu β σ R) (instant : Instant) (taskId : TaskId) (counter : Nat) :
    Cpu β σ R × Nat :=
  let r := cpu.timer.schedule instant taskId counter
  ({ cpu with timer := r.1 }, r.2.2)

/-- Handling a `SubmitTask` for the id of a task in the map replaces the task,
    which is dropped, and with it the sender of its handle's channel if it was
    spawned here. -/
theorem handleMessage_submitTask_of_lookup {cpu : Cpu β σ R} {k : TaskId} {old : Task σ} {g : σ}
    (hl : cpu.taskQueue.lookup k = some old) :
    (cpu.handleMessage (.submitTask k g)).taskQueue.lookup k = some ⟨k, g, false⟩ ∧
      (cpu.handleMessage (.submitTask k g)).channels = dropTask cpu.channels old := by
  simp [handleMessage, insertTask, hl]

variable (poll : σ → TaskId → PollStep β σ)

/-- The body of the ready loop of `tick` for a popped id: a cancelled id is
    forgotten and its task removed; the task of another id, if in the map, is
    polled and put back if pending; a panic unwinds. Whether a task was
    cancelled or polled. -/
def runTask (cpu : Cpu β σ R) (taskId : TaskId) : Except TaskId (Cpu β σ R × Bool) :=
  if taskId ∈ cpu.cancelledTasks then
    .ok ({ cpu.removeTask taskId with cancelledTasks := cpu.cancelledTasks.erase taskId }, true)
  else
    match cpu.taskQueue.lookup taskId with
    | none => .ok (cpu, false)
    | some task =>
      let step := poll task.future taskId
      let cpu := { cpu with
        taskQueue := cpu.taskQueue.erase taskId
        readyQueue := cpu.readyQueue ++ step.wakes
        channels := settleTask cpu.channels task step.result }
      match step.result with
      | .pending future =>
        .ok ({ cpu with taskQueue := cpu.taskQueue.insert taskId { task with future := future } }, true)
      | .ready _ => .ok (cpu, true)
      | .panicked => .error taskId

/-- One round of `while let Some(task_id) = self.ready_queue.pop()` in `tick`. -/
def tickRound (st : Cpu β σ R × Bool) :
    (Cpu β σ R × Bool) ⊕ Except TaskId (Cpu β σ R × Bool) :=
  match st.1.readyQueue with
  | [] => .inr (.ok st)
  | taskId :: rest =>
    match runTask poll { st.1 with readyQueue := rest } taskId with
    | .ok r => .inl (r.1, st.2 || r.2)
    | .error taskId => .inr (.error taskId)

/-- `Cpu::tick` at the instant `now`, with the backend's `completions`, its
    ready loop run for at most `fuel` rounds. -/
def tick (fuel : Nat) (now : Instant) (completions : Option (List (IoToken × R)))
    (cpu : Cpu β σ R) : Option (Except TaskId (Cpu β σ R × Bool)) :=
  match cpu.processMessages.expireTimers now with
  | none => none
  | some r =>
    match loop (tickRound poll) fuel r with
    | none => none
    | some (.error taskId) => some (.error taskId)
    | some (.ok (cpu, madeProgress)) =>
      let io := cpu.pollIoCompletions completions
      some (.ok (io.1, madeProgress || io.2))

/-- The body of the loop of `Cpu::run`: a `tick` — at the instant `now`, with
    the backend's `completions`, its ready loop given `fuel` rounds —, the
    messages `arrived` that other threads send meanwhile, and then, with the
    ready queue empty, the message `recv_timeout` returns, if any, and
    otherwise every message waiting. The loop runs while `running`. -/
def runIteration (fuel : Nat) (now : Instant) (completions : Option (List (IoToken × R)))
    (arrived : List (CrossCpuMessage σ)) (cpu : Cpu β σ R) : Option (Except TaskId (Cpu β σ R)) :=
  match tick poll fuel now completions cpu with
  | none => none
  | some (.error taskId) => some (.error taskId)
  | some (.ok (cpu, _)) =>
    let cpu := { cpu with messageReceiver := arrived.foldl Chan.send cpu.messageReceiver }
    if cpu.readyQueue.isEmpty then
      match cpu.messageReceiver.tryRecv with
      | (.ok message, rx) => some (.ok (({ cpu with messageReceiver := rx } : Cpu β σ R).handleMessage message))
      | (.error .disconnected, _) => some (.ok { cpu with running := false })
      | (.error .empty, _) => some (.ok cpu)
    else some (.ok cpu.processMessages)

/-! ## One round -/

variable {poll} {cpu cpu' : Cpu β σ R} {taskId k : TaskId} {task : Task σ} {b : Bool}

theorem runTask_of_cancelled (h : taskId ∈ cpu.cancelledTasks) :
    runTask poll cpu taskId =
      .ok ({ cpu.removeTask taskId with cancelledTasks := cpu.cancelledTasks.erase taskId }, true) := by
  rw [runTask, if_pos h]

theorem runTask_of_lookup_none (hc : taskId ∉ cpu.cancelledTasks)
    (h : cpu.taskQueue.lookup taskId = none) : runTask poll cpu taskId = .ok (cpu, false) := by
  rw [runTask, if_neg hc, h]

theorem runTask_of_pending {f : σ} (hc : taskId ∉ cpu.cancelledTasks)
    (h : cpu.taskQueue.lookup taskId = some task)
    (hr : (poll task.future taskId).result = .pending f) :
    runTask poll cpu taskId = .ok ({ cpu with
        taskQueue := (cpu.taskQueue.erase taskId).insert taskId { task with future := f }
        readyQueue := cpu.readyQueue ++ (poll task.future taskId).wakes
        channels := settleTask cpu.channels task (.pending f) }, true) := by
  rw [runTask, if_neg hc, h]
  simp only [hr]

theorem runTask_of_ready {v : β} (hc : taskId ∉ cpu.cancelledTasks)
    (h : cpu.taskQueue.lookup taskId = some task)
    (hr : (poll task.future taskId).result = .ready v) :
    runTask poll cpu taskId = .ok ({ cpu with
        taskQueue := cpu.taskQueue.erase taskId
        readyQueue := cpu.readyQueue ++ (poll task.future taskId).wakes
        channels := settleTask cpu.channels task (.ready v) }, true) := by
  rw [runTask, if_neg hc, h]
  simp only [hr]

/-- A panic in the poll of a task unwinds out of the round. -/
theorem runTask_of_panicked (hc : taskId ∉ cpu.cancelledTasks)
    (h : cpu.taskQueue.lookup taskId = some task)
    (hr : (poll task.future taskId).result = .panicked) :
    runTask poll cpu taskId = .error taskId := by
  rw [runTask, if_neg hc, h]
  simp only [hr]

/-- A round that polls a task without a panic: the task stays in the map iff
    pending, and the ids it woke are pushed. -/
theorem runTask_of_lookup_some (hc : taskId ∉ cpu.cancelledTasks)
    (h : cpu.taskQueue.lookup taskId = some task)
    (hp : (poll task.future taskId).result.isPanicked = false) :
    ∃ cpu', runTask poll cpu taskId = .ok (cpu', true) ∧
      cpu'.readyQueue = cpu.readyQueue ++ (poll task.future taskId).wakes ∧
      cpu'.cancelledTasks = cpu.cancelledTasks ∧
      ∀ j, j ∈ cpu'.taskQueue ↔
        j ∈ cpu.taskQueue ∧ (j = taskId → (poll task.future taskId).result.outcome = .pending) := by
  have hmem : taskId ∈ cpu.taskQueue := AList.lookup_isSome.1 (by simp [h])
  cases hr : (poll task.future taskId).result with
  | pending f =>
    refine ⟨_, runTask_of_pending hc h hr, rfl, rfl, fun j => ?_⟩
    by_cases hj : j = taskId
    · subst hj
      simp [AList.mem_insert, hmem, PollResult.outcome]
    · simp [AList.mem_insert, AList.mem_erase, hj]
  | ready v =>
    refine ⟨_, runTask_of_ready hc h hr, rfl, rfl, fun j => ?_⟩
    by_cases hj : j = taskId
    · subst hj
      simp [AList.mem_erase, PollResult.outcome]
    · simp [AList.mem_erase, hj]
  | panicked => rw [hr] at hp; cases hp

/-- A round that returns after polling a task did not panic. -/
theorem isPanicked_of_runTask_ok {r : Cpu β σ R × Bool} (hc : taskId ∉ cpu.cancelledTasks)
    (h : cpu.taskQueue.lookup taskId = some task) (hr : runTask poll cpu taskId = .ok r) :
    (poll task.future taskId).result.isPanicked = false := by
  cases hres : (poll task.future taskId).result with
  | panicked =>
    rw [runTask_of_panicked hc h hres] at hr
    cases hr
  | _ => rfl

/-- A round for `taskId` that returns leaves the entry of another id, pushes
    onto the ready queue, and cancels no other id. -/
theorem runTask_frame (h : runTask poll cpu taskId = .ok (cpu', b)) (hk : k ≠ taskId) :
    cpu'.taskQueue.lookup k = cpu.taskQueue.lookup k ∧
      (∃ ws, cpu'.readyQueue = cpu.readyQueue ++ ws) ∧
      (k ∉ cpu.cancelledTasks → k ∉ cpu'.cancelledTasks) := by
  by_cases hc : taskId ∈ cpu.cancelledTasks
  · rw [runTask_of_cancelled hc] at h
    cases h
    exact ⟨by simp [removeTask, AList.lookup_erase_ne hk], ⟨[], by simp [removeTask]⟩,
      fun hn hm => hn (List.mem_of_mem_erase hm)⟩
  cases hl : cpu.taskQueue.lookup taskId with
  | none =>
    rw [runTask_of_lookup_none hc hl] at h
    cases h
    exact ⟨rfl, ⟨[], by simp⟩, fun h => h⟩
  | some task =>
    cases hr : (poll task.future taskId).result with
    | pending f =>
      rw [runTask_of_pending hc hl hr] at h
      cases h
      exact ⟨by simp [AList.lookup_insert_ne hk, AList.lookup_erase_ne hk], ⟨_, rfl⟩, fun h => h⟩
    | ready v =>
      rw [runTask_of_ready hc hl hr] at h
      cases h
      exact ⟨by simp [AList.lookup_erase_ne hk], ⟨_, rfl⟩, fun h => h⟩
    | panicked => rw [runTask_of_panicked hc hl hr] at h; cases h

/-- A round that returns changes only the map, the ready queue, the channels,
    and forgets the popped id as cancelled. -/
theorem runTask_shape (h : runTask poll cpu taskId = .ok (cpu', b)) :
    ∃ tq rq ch, cpu' =
      { cpu with
        taskQueue := tq
        readyQueue := rq
        cancelledTasks := cpu.cancelledTasks.erase taskId
        channels := ch } := by
  by_cases hc : taskId ∈ cpu.cancelledTasks
  · rw [runTask_of_cancelled hc] at h
    cases h
    exact ⟨_, _, _, rfl⟩
  rw [List.erase_of_not_mem hc]
  cases hl : cpu.taskQueue.lookup taskId with
  | none => rw [runTask_of_lookup_none hc hl] at h; cases h; exact ⟨_, _, _, rfl⟩
  | some task =>
    cases hr : (poll task.future taskId).result with
    | pending f => rw [runTask_of_pending hc hl hr] at h; cases h; exact ⟨_, _, _, rfl⟩
    | ready v => rw [runTask_of_ready hc hl hr] at h; cases h; exact ⟨_, _, _, rfl⟩
    | panicked => rw [runTask_of_panicked hc hl hr] at h; cases h

theorem cancelledTasks_runTask (h : runTask poll cpu taskId = .ok (cpu', b)) :
    cpu'.cancelledTasks = cpu.cancelledTasks.erase taskId := by
  obtain ⟨_, _, _, rfl⟩ := runTask_shape h
  rfl

theorem messageReceiver_runTask (h : runTask poll cpu taskId = .ok (cpu', b)) :
    cpu'.messageReceiver = cpu.messageReceiver := by
  obtain ⟨_, _, _, rfl⟩ := runTask_shape h
  rfl

/-- With polls that never panic, a round returns. -/
theorem runTask_isOk (hpanic : ∀ f, (poll f taskId).result.isPanicked = false) :
    ∃ r, runTask poll cpu taskId = .ok r := by
  by_cases hc : taskId ∈ cpu.cancelledTasks
  · exact ⟨_, runTask_of_cancelled hc⟩
  cases hl : cpu.taskQueue.lookup taskId with
  | none => exact ⟨_, runTask_of_lookup_none hc hl⟩
  | some task =>
    obtain ⟨cpu', h, -⟩ := runTask_of_lookup_some hc hl (hpanic task.future)
    exact ⟨_, h⟩

/-! ## The loop -/

theorem tickRound_nil {st : Cpu β σ R × Bool} (h : st.1.readyQueue = []) :
    tickRound poll st = .inr (.ok st) := by
  rw [tickRound, h]

theorem tickRound_of_ok {st : Cpu β σ R × Bool} {rest : List TaskId} {r : Cpu β σ R × Bool}
    (hq : st.1.readyQueue = taskId :: rest)
    (h : runTask poll { st.1 with readyQueue := rest } taskId = .ok r) :
    tickRound poll st = .inl (r.1, st.2 || r.2) := by
  rw [tickRound, hq]
  simp only [h]

theorem tickRound_of_error {st : Cpu β σ R × Bool} {rest : List TaskId}
    (hq : st.1.readyQueue = taskId :: rest)
    (h : runTask poll { st.1 with readyQueue := rest } taskId = .error k) :
    tickRound poll st = .inr (.error k) := by
  rw [tickRound, hq]
  simp only [h]

/-- A round that goes on polled the front id of the queue, and `runTask`
    returned. -/
theorem tickRound_eq_inl {st st' : Cpu β σ R × Bool} (h : tickRound poll st = .inl st') :
    ∃ taskId rest r, st.1.readyQueue = taskId :: rest ∧
      runTask poll { st.1 with readyQueue := rest } taskId = .ok r ∧ st' = (r.1, st.2 || r.2) := by
  cases hq : st.1.readyQueue with
  | nil => rw [tickRound_nil hq] at h; cases h
  | cons taskId rest =>
    cases hr : runTask poll { st.1 with readyQueue := rest } taskId with
    | error k => rw [tickRound_of_error hq hr] at h; cases h
    | ok r =>
      rw [tickRound_of_ok hq hr] at h
      cases h
      exact ⟨taskId, rest, r, rfl, hr, rfl⟩

/-- A round that stops found the queue empty, or a panic in the poll of its
    front id. -/
theorem tickRound_eq_inr {st : Cpu β σ R × Bool} {res : Except TaskId (Cpu β σ R × Bool)}
    (h : tickRound poll st = .inr res) :
    (st.1.readyQueue = [] ∧ res = .ok st) ∨
      ∃ taskId rest k, st.1.readyQueue = taskId :: rest ∧
        runTask poll { st.1 with readyQueue := rest } taskId = .error k ∧ res = .error k := by
  cases hq : st.1.readyQueue with
  | nil =>
    rw [tickRound_nil hq] at h
    cases h
    exact .inl ⟨rfl, rfl⟩
  | cons taskId rest =>
    cases hr : runTask poll { st.1 with readyQueue := rest } taskId with
    | ok r => rw [tickRound_of_ok hq hr] at h; cases h
    | error k =>
      rw [tickRound_of_error hq hr] at h
      cases h
      exact .inr ⟨taskId, rest, k, rfl, hr, rfl⟩

/-- The ready loop of a `tick` whose queue holds a task that, from the states `S`
    of its future, stays pending and wakes itself on every poll, among tasks
    whose polls never panic, never ends: each round either polls or skips
    another id, leaving this task's entry and its queued id, or polls this one,
    which pushes its id back. -/
theorem loop_tickRound_eq_none (S : Set σ)
    (hS : ∀ f ∈ S, ∃ f', (poll f k).result = .pending f' ∧ f' ∈ S ∧ k ∈ (poll f k).wakes)
    (hpanic : ∀ f j, (poll f j).result.isPanicked = false)
    (ht : cpu.taskQueue.lookup k = some task) (hf : task.future ∈ S) (hq : k ∈ cpu.readyQueue)
    (hc : k ∉ cpu.cancelledTasks) (fuel : Nat) :
    loop (tickRound poll) fuel (cpu, b) = none := by
  refine loop_eq_none (fun st => ∃ t : Task σ, st.1.taskQueue.lookup k = some t ∧
      t.future ∈ S ∧ k ∈ st.1.readyQueue ∧ k ∉ st.1.cancelledTasks) ?_ ⟨task, ht, hf, hq, hc⟩
  rintro ⟨cpu, b⟩ ⟨t, ht, hf, hq, hc⟩
  dsimp only at ht hq hc
  obtain ⟨j, rest, hjr⟩ : ∃ j rest, cpu.readyQueue = j :: rest :=
    List.exists_cons_of_ne_nil (List.ne_nil_of_mem hq)
  obtain ⟨r, hr⟩ : ∃ r, runTask poll { cpu with readyQueue := rest } j = .ok r :=
    runTask_isOk (hpanic · j)
  refine ⟨_, tickRound_of_ok hjr hr, ?_⟩
  by_cases hjk : j = k
  · -- The self-waking task is polled: it goes back into the map, and its id into the queue.
    subst hjk
    obtain ⟨f', hres, hf', hwake⟩ := hS t.future hf
    have hc' : j ∉ ({ cpu with readyQueue := rest } : Cpu β σ R).cancelledTasks := hc
    have ht' : ({ cpu with readyQueue := rest } : Cpu β σ R).taskQueue.lookup j = some t := ht
    rw [runTask_of_pending hc' ht' hres] at hr
    cases hr
    exact ⟨{ t with future := f' }, by simp, hf', by simp [hwake], hc⟩
  · -- Another id: this task keeps its entry, and its id stays queued.
    obtain ⟨hl, ⟨ws, hws⟩, hc'⟩ := runTask_frame hr (Ne.symm hjk)
    rw [hjr] at hq
    refine ⟨t, hl.trans ht, hf, ?_, hc' hc⟩
    rw [hws]
    exact List.mem_append_left _ ((List.mem_cons.1 hq).resolve_left (Ne.symm hjk))

/-! ## A whole tick -/

omit poll in
@[simp] theorem handleMessage_messageReceiver (m : CrossCpuMessage σ) :
    (cpu.handleMessage m).messageReceiver = cpu.messageReceiver := by
  cases m <;> rfl

omit poll in
theorem handleMessage_with_messageReceiver (m : CrossCpuMessage σ) (rx : Chan (CrossCpuMessage σ)) :
    { cpu.handleMessage m with messageReceiver := rx } =
      ({ cpu with messageReceiver := rx } : Cpu β σ R).handleMessage m := by
  cases m <;> rfl

omit poll in
/-- `process_messages` handles the front message, then the others. -/
theorem processMessages_cons {m : CrossCpuMessage σ} {ms : List (CrossCpuMessage σ)}
    (h : cpu.messageReceiver.buffer = m :: ms) :
    cpu.processMessages = processMessages
      (({ cpu with messageReceiver := { cpu.messageReceiver with buffer := ms } } : Cpu β σ R).handleMessage m) := by
  unfold processMessages
  rw [h, List.foldl_cons, handleMessage_messageReceiver, handleMessage_with_messageReceiver]

omit poll in
theorem processMessages_of_nil (h : cpu.messageReceiver.buffer = []) : cpu.processMessages = cpu := by
  rcases cpu with ⟨_, _, _, ⟨buffer, _⟩, _, _, _, _, _, _⟩
  dsimp only at h
  subst h
  rfl

omit poll in
/-- On a valid wheel the timers of a `tick` are expired. -/
theorem expireTimers_isSome (now : Instant) (hw : cpu.timer.Valid) :
    ∃ r, cpu.expireTimers now = some r := by
  rw [expireTimers, TimerWheel.expire_eq hw]
  exact ⟨_, rfl⟩

omit poll in
/-- Expiring timers only pushes onto the ready queue. -/
theorem expireTimers_frame {now : Instant} {r : Cpu β σ R × Bool} (h : cpu.expireTimers now = some r) :
    r.1.taskQueue = cpu.taskQueue ∧ r.1.cancelledTasks = cpu.cancelledTasks ∧
      ∃ ws, r.1.readyQueue = cpu.readyQueue ++ ws := by
  obtain ⟨r', -, rfl⟩ := Option.map_eq_some_iff.1 h
  exact ⟨rfl, rfl, _, rfl⟩

/-- What a `tick` that returns did: its timers gave `e`, its ready loop returned
    `res` from there, and a loop that ended `ok` was followed by the I/O
    completions. -/
theorem tick_eq_some {fuel : Nat} {now : Instant} {completions : Option (List (IoToken × R))}
    {x : Except TaskId (Cpu β σ R × Bool)} (h : tick poll fuel now completions cpu = some x) :
    ∃ e res, cpu.processMessages.expireTimers now = some e ∧ loop (tickRound poll) fuel e = some res ∧
      x = res.map fun r => ((r.1.pollIoCompletions completions).1, r.2 || (r.1.pollIoCompletions completions).2) := by
  rw [tick] at h
  cases he : cpu.processMessages.expireTimers now with
  | none => simp [he] at h
  | some e =>
    cases hl : loop (tickRound poll) fuel e with
    | none => simp [he, hl] at h
    | some res =>
      refine ⟨e, res, rfl, hl, ?_⟩
      -- The two ends of the loop, as `tick` matches them.
      cases res with
      | error k => simpa [he, hl, Except.map] using h.symm
      | ok r => simpa [he, hl, Except.map] using h.symm

/-- A `tick` of a CPU with no message waiting, whose ready queue holds a task
    that stays pending and wakes itself on every poll, among tasks whose polls
    never panic, never returns, whatever the fuel: it never reaches
    `poll_io_completions`. -/
theorem tick_eq_none (S : Set σ)
    (hS : ∀ f ∈ S, ∃ f', (poll f k).result = .pending f' ∧ f' ∈ S ∧ k ∈ (poll f k).wakes)
    (hpanic : ∀ f j, (poll f j).result.isPanicked = false)
    (hm : cpu.messageReceiver.buffer = []) (ht : cpu.taskQueue.lookup k = some task)
    (hf : task.future ∈ S) (hq : k ∈ cpu.readyQueue) (hc : k ∉ cpu.cancelledTasks)
    (fuel : Nat) (now : Instant) (completions : Option (List (IoToken × R))) :
    tick poll fuel now completions cpu = none := by
  rw [tick, processMessages_of_nil hm]
  cases he : cpu.expireTimers now with
  | none => rfl
  | some r =>
    obtain ⟨htq, hcc, ws, hws⟩ := expireTimers_frame he
    obtain ⟨c, b⟩ := r
    have hq' : k ∈ c.readyQueue := hws ▸ List.mem_append_left _ hq
    dsimp only
    rw [loop_tickRound_eq_none S hS hpanic (htq ▸ ht) hf hq' (hcc ▸ hc) fuel]

/-- A `tick` of a CPU with no message waiting, whose ready queue starts with a
    task whose poll panics, ends with the panic. -/
theorem tick_of_panicked {rest : List TaskId} (hm : cpu.messageReceiver.buffer = [])
    (hw : cpu.timer.Valid) (hq : cpu.readyQueue = k :: rest) (hc : k ∉ cpu.cancelledTasks)
    (ht : cpu.taskQueue.lookup k = some task) (hp : (poll task.future k).result = .panicked)
    (fuel : Nat) (now : Instant) (completions : Option (List (IoToken × R))) :
    tick poll (fuel + 1) now completions cpu = some (.error k) := by
  obtain ⟨r, he⟩ := expireTimers_isSome now hw
  obtain ⟨htq, hcc, ws, hws⟩ := expireTimers_frame he
  have hq' : r.1.readyQueue = k :: (rest ++ ws) := by rw [hws, hq, List.cons_append]
  have herr : runTask poll { r.1 with readyQueue := rest ++ ws } k = .error k :=
    runTask_of_panicked (hcc ▸ hc) (htq ▸ ht) hp
  rw [tick, processMessages_of_nil hm, he]
  simp only [loop_succ_of_inr (tickRound_of_error hq' herr)]

/-! ## The loop of `Cpu::run` -/

omit poll in
/-- Handling, after any messages, a `SubmitTask` and then a `Shutdown`: the task
    is in the map as submitted, and `running` is down. -/
theorem foldl_handleMessage_submitTask_shutdown (ms : List (CrossCpuMessage σ)) (g : σ) :
    ((ms ++ [CrossCpuMessage.submitTask k g, .shutdown]).foldl handleMessage cpu).running = false ∧
      ((ms ++ [CrossCpuMessage.submitTask k g, .shutdown]).foldl handleMessage cpu).taskQueue.lookup k =
        some ⟨k, g, false⟩ := by
  simp [List.foldl_append, handleMessage, insertTask]

/-- With tasks left in the ready queue after the `tick`, the iteration drains
    the channel: the messages that arrived meanwhile are all handled. -/
theorem runIteration_of_ready {fuel : Nat} {now : Instant} {completions : Option (List (IoToken × R))}
    (h : tick poll fuel now completions cpu = some (.ok (cpu', b))) (hq : cpu'.readyQueue ≠ [])
    (arrived : List (CrossCpuMessage σ)) :
    runIteration poll fuel now completions arrived cpu =
      some (.ok ({ cpu' with messageReceiver := arrived.foldl Chan.send cpu'.messageReceiver } :
        Cpu β σ R).processMessages) := by
  simp [runIteration, h, hq]

/-- With tasks left in the ready queue after the `tick`, a `SubmitTask` and then
    a `Shutdown` sent during it are handled in the same iteration: the task is
    put in the map and `running` goes down, so `Cpu::run` returns before the
    task is polled. -/
theorem runIteration_submitTask_shutdown {fuel : Nat} {now : Instant}
    {completions : Option (List (IoToken × R))}
    (h : tick poll fuel now completions cpu = some (.ok (cpu', b))) (hq : cpu'.readyQueue ≠ []) (g : σ) :
    ∃ cpu'', runIteration poll fuel now completions [.submitTask k g, .shutdown] cpu = some (.ok cpu'') ∧
      cpu''.running = false ∧ cpu''.taskQueue.lookup k = some ⟨k, g, false⟩ := by
  refine ⟨_, runIteration_of_ready h hq _, ?_⟩
  -- The channel holds what the `tick` left, then the two messages.
  have hb : ([.submitTask k g, .shutdown] : List (CrossCpuMessage σ)).foldl Chan.send cpu'.messageReceiver =
      { cpu'.messageReceiver with buffer := cpu'.messageReceiver.buffer ++ [.submitTask k g, .shutdown] } := by
    simp [Chan.send]
  rw [processMessages, hb]
  exact foldl_handleMessage_submitTask_shutdown _ g

end Cpu

end Miniss
