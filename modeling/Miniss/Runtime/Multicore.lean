import Miniss.Data.Loop
import Miniss.Runtime.Cpu

/-!
# The cores of the multi-core runtime

`CpuCore` (`src/multicore.rs`): a core of a `MultiCoreRuntime`, with its own
queue of tasks — front first, each an id and a future —, its inbox of
`CoreMessage`s, its shutdown flag and its count of tasks. A round of its run
loop (`CpuCore.iteration`) handles at most 32 messages, stopping after a
`Shutdown`, then polls at most 16 tasks, front first, with a waker that does
nothing: a pending task goes to the back, a finished one is counted out. The
loop runs while the flag is down; a panic in a poll ends the core's thread.
Its I/O and timers leave the core as it is.

A `MultiCoreRuntime` hands tasks to the cores: `spawn` draws an id from the
global counter `NEXT_TASK_ID` and pushes a `Task` message into the inbox of a
core chosen round-robin, and `shutdown` pushes a `Shutdown` message into every
inbox. A `RuntimeRun` interleaves these calls, from any threads, with the
rounds of the cores.

* `CpuCore.Inv`: along every run of a core, its count is at least the length
  of its queue, so it never goes below zero (`CpuCore.inv_runEvents`); a
  `CancelTask` leaves it above the length (`local_task_count_bounds_queue`);
* `CpuCore.run_of_shutdown`: a core whose inbox holds 16 tasks or more, fewer
  than 32, and then `Shutdown` returns from its run loop having polled only the
  first 16;
* `RuntimeRun.round_of_shutdown`: the same core, in a runtime;
  `shutdown_loses_accepted_tasks` puts it together with the drain of
  `Cpu::run` (`Cpu.runIteration_submitTask_shutdown`): both lose tasks that
  were sent before the shutdown.

The counts of tasks are integers: the code's `usize` would wrap or panic
where the model's goes below zero.
-/

namespace Miniss

/-- `CoreMessage`. -/
inductive CoreMessage (σ : Type*) where
  | task (id : TaskId) (future : σ)
  | ping (fromCore : Nat)
  | shutdown
  | cancelTask (taskId : TaskId)

/-- The state of a `CpuCore` that its loop uses. -/
structure CpuCore (σ : Type*) where
  id : Nat
  taskQueue : List (TaskId × σ)
  messageInbox : List (CoreMessage σ)
  shutdown : Bool
  localTaskCount : Int

/-- A mapped `Except` that is `ok` comes from an `ok`. -/
theorem exists_of_map_eq_ok {ε α β : Type*} {f : α → β} {x : Except ε α} {b : β}
    (h : x.map f = .ok b) : ∃ a, x = .ok a ∧ f a = b := by
  cases x with
  | error e => cases h
  | ok a => exact ⟨a, rfl, by simpa [Except.map] using h⟩

namespace CpuCore

variable {σ : Type*}

/-- `CpuCore::new`: no task, no message, the flag down. -/
def new (id : Nat) : CpuCore σ := ⟨id, [], [], false, 0⟩

/-- The `while processed < 32` loop of `process_messages`, with `budget`
    messages left to handle: the core after it, and how many it handled. -/
def handleMessages : Nat → CpuCore σ → CpuCore σ × Nat
  | 0, core => (core, 0)
  | budget + 1, core =>
    match core.messageInbox with
    | [] => (core, 0)
    | message :: rest =>
      let core := { core with messageInbox := rest }
      match message with
      | .task id future =>
        let r := handleMessages budget { core with
          taskQueue := core.taskQueue ++ [(id, future)]
          localTaskCount := core.localTaskCount + 1 }
        (r.1, r.2 + 1)
      | .ping _ =>
        let r := handleMessages budget core
        (r.1, r.2 + 1)
      | .shutdown => ({ core with shutdown := true }, 1)
      | .cancelTask taskId =>
        -- `retain` removes the tasks of the id, and the count stays.
        let r := handleMessages budget { core with taskQueue := core.taskQueue.filter (·.1 ≠ taskId) }
        (r.1, r.2 + 1)

/-- `CpuCore::process_messages`: whether it handled a message. -/
def processMessages (core : CpuCore σ) : CpuCore σ × Bool :=
  let r := handleMessages 32 core
  (r.1, decide (0 < r.2))

variable (poll : σ → PollResult Unit σ)

/-- The `while executed < 16` loop of `execute_tasks`, with `budget` polls left:
    the core after it, and the ids of the tasks it polled, in order (their number
    is `executed`); a panic unwinds. -/
def runTasks : Nat → CpuCore σ → Except TaskId (CpuCore σ × List TaskId)
  | 0, core => .ok (core, [])
  | budget + 1, core =>
    match core.taskQueue with
    | [] => .ok (core, [])
    | (id, future) :: rest =>
      match poll future with
      | .ready _ =>
        (runTasks budget { core with taskQueue := rest, localTaskCount := core.localTaskCount - 1 }).map
          fun r => (r.1, id :: r.2)
      | .pending future =>
        (runTasks budget { core with taskQueue := rest ++ [(id, future)] }).map fun r => (r.1, id :: r.2)
      | .panicked => .error id

/-- `CpuCore::execute_tasks`: whether it polled a task. -/
def executeTasks (core : CpuCore σ) : Except TaskId (CpuCore σ × Bool) :=
  (runTasks poll 16 core).map fun r => (r.1, !r.2.isEmpty)

/-- A round of the loop of `CpuCore::run`: messages, then tasks. The core after
    it, and the ids of the tasks it polled. -/
def iteration (core : CpuCore σ) : Except TaskId (CpuCore σ × List TaskId) :=
  runTasks poll 16 core.processMessages.1

/-- `while !self.shutdown.load(..)`: the loop stops when the flag is up. -/
def runRound (st : CpuCore σ × List TaskId) :
    (CpuCore σ × List TaskId) ⊕ Except TaskId (CpuCore σ × List TaskId) :=
  if st.1.shutdown then .inr (.ok st)
  else
    match iteration poll st.1 with
    | .ok r => .inl (r.1, st.2 ++ r.2)
    | .error id => .inr (.error id)

/-- `CpuCore::run` with no message pushed meanwhile, for at most `fuel` rounds:
    the core when the loop sees its flag up, and the ids of the tasks polled. -/
def run (fuel : Nat) (core : CpuCore σ) : Option (Except TaskId (CpuCore σ × List TaskId)) :=
  loop (runRound poll) fuel (core, [])

/-- What can happen to a core: a message pushed into its inbox by another
    thread, a `process_messages`, an `execute_tasks`. -/
inductive Event (σ : Type*) where
  | push (message : CoreMessage σ)
  | processMessages
  | executeTasks

/-- One event; `none` once a poll has panicked, which ends the core's thread. -/
def step (core : CpuCore σ) : Event σ → Option (CpuCore σ)
  | .push message => some { core with messageInbox := core.messageInbox ++ [message] }
  | .processMessages => some core.processMessages.1
  | .executeTasks =>
    match executeTasks poll core with
    | .ok r => some r.1
    | .error _ => none

/-- A run of events. -/
def runEvents (core : CpuCore σ) (events : List (Event σ)) : Option (CpuCore σ) :=
  events.foldlM (step poll) core

/-! ## The count of tasks -/

/-- The count of a core is at least the length of its queue. -/
def Inv (core : CpuCore σ) : Prop := (core.taskQueue.length : Int) ≤ core.localTaskCount

omit poll in
theorem Inv.handleMessages {core : CpuCore σ} (h : core.Inv) (budget : Nat) :
    (handleMessages budget core).1.Inv := by
  induction budget generalizing core with
  | zero => exact h
  | succ budget ih =>
    cases hm : core.messageInbox with
    | nil => simpa [CpuCore.handleMessages, hm] using h
    | cons message rest =>
      -- A task adds one to both sides; a cancellation only shortens the queue.
      cases message with
      | task id future =>
        simp only [CpuCore.handleMessages, hm]
        refine ih ?_
        simp only [Inv, List.length_append, List.length_singleton, Nat.cast_add, Nat.cast_one] at h ⊢
        omega
      | ping fromCore =>
        simp only [CpuCore.handleMessages, hm]
        exact ih h
      | shutdown => simpa [CpuCore.handleMessages, hm, Inv] using h
      | cancelTask taskId =>
        simp only [CpuCore.handleMessages, hm]
        refine ih (le_trans ?_ h)
        exact_mod_cast List.length_filter_le _ _

theorem Inv.runTasks {core core' : CpuCore σ} {ids : List TaskId} (h : core.Inv) (budget : Nat)
    (hr : runTasks poll budget core = .ok (core', ids)) : core'.Inv := by
  induction budget generalizing core ids with
  | zero =>
    cases hr
    exact h
  | succ budget ih =>
    cases hq : core.taskQueue with
    | nil =>
      simp only [CpuCore.runTasks, hq] at hr
      cases hr
      exact h
    | cons t rest =>
      obtain ⟨id, future⟩ := t
      have hlen : (core.taskQueue.length : Int) = rest.length + 1 := by simp [hq]
      cases hp : poll future with
      | ready v =>
        -- A finished task leaves the queue and the count, one each.
        simp only [CpuCore.runTasks, hq, hp] at hr
        obtain ⟨r, hr', hre⟩ := exists_of_map_eq_ok hr
        cases hre
        refine ih ?_ hr'
        simp only [Inv] at h ⊢
        omega
      | pending future' =>
        simp only [CpuCore.runTasks, hq, hp] at hr
        obtain ⟨r, hr', hre⟩ := exists_of_map_eq_ok hr
        cases hre
        refine ih ?_ hr'
        simp only [Inv, List.length_append, List.length_singleton] at h ⊢
        omega
      | panicked => simp [CpuCore.runTasks, hq, hp] at hr

theorem Inv.step {core core' : CpuCore σ} (h : core.Inv) {ev : Event σ}
    (hs : step poll core ev = some core') : core'.Inv := by
  cases ev with
  | push message =>
    cases hs
    exact h
  | processMessages =>
    cases hs
    exact h.handleMessages 32
  | executeTasks =>
    simp only [CpuCore.step] at hs
    cases he : executeTasks poll core with
    | error id => rw [he] at hs; cases hs
    | ok r =>
      rw [he] at hs
      cases hs
      obtain ⟨r', hr', hre⟩ := exists_of_map_eq_ok he
      cases hre
      exact h.runTasks poll 16 hr'

omit poll in
theorem inv_new (id : Nat) : (new id : CpuCore σ).Inv := le_refl 0

/-- The invariant holds along every run from a state where it holds. -/
theorem Inv.runEvents {start core : CpuCore σ} (hs : start.Inv) (events : List (Event σ))
    (h : runEvents poll start events = some core) : core.Inv := by
  induction events generalizing start with
  | nil =>
    cases h
    exact hs
  | cons ev events ih =>
    cases hstep : CpuCore.step poll start ev with
    | none => simp [CpuCore.runEvents, hstep] at h
    | some next =>
      simp only [CpuCore.runEvents, List.foldlM_cons, hstep, Option.bind_eq_bind, Option.bind_some] at h
      exact ih (hs.step poll hstep) h

/-- Along every run of a core from `CpuCore::new`, its count is at least the
    length of its queue: it never goes below zero. -/
theorem inv_runEvents (id : Nat) (events : List (Event σ)) {core : CpuCore σ}
    (h : runEvents poll (new id) events = some core) : core.Inv :=
  (inv_new id).runEvents poll events h

/-! ## Shutting a core down -/

omit poll in
/-- `process_messages` on an inbox holding `tasks` and then `Shutdown`, within
    its budget: the tasks are queued in order, the flag raised, and what
    follows left in the inbox. -/
theorem handleMessages_tasks_shutdown (core : CpuCore σ) (tasks : List (TaskId × σ))
    (rest : List (CoreMessage σ)) {budget : Nat} (hb : tasks.length < budget)
    (hm : core.messageInbox =
      tasks.map (fun t => CoreMessage.task t.1 t.2) ++ CoreMessage.shutdown :: rest) :
    (handleMessages budget core).1 = { core with
      taskQueue := core.taskQueue ++ tasks
      messageInbox := rest
      shutdown := true
      localTaskCount := core.localTaskCount + tasks.length } := by
  induction tasks generalizing core budget with
  | nil =>
    obtain ⟨budget, rfl⟩ : ∃ b, budget = b + 1 := ⟨budget - 1, by simp at hb; omega⟩
    simp [CpuCore.handleMessages, hm]
  | cons t tasks ih =>
    obtain ⟨budget, rfl⟩ : ∃ b, budget = b + 1 := ⟨budget - 1, by simp at hb; omega⟩
    simp only [List.map_cons, List.cons_append] at hm
    simp only [CpuCore.handleMessages, hm]
    rw [ih _ (by simpa using hb) rfl]
    simp only [List.append_assoc, List.singleton_append, List.length_cons, Nat.cast_add,
      Nat.cast_one]
    congr 1
    ring

/-- With polls that never panic, `execute_tasks` on a queue of at least `budget`
    tasks polls the first `budget` of them, each once, and leaves the others at
    the front of the queue. -/
theorem runTasks_of_le (hpanic : ∀ f, poll f ≠ .panicked) {budget : Nat} (core : CpuCore σ)
    (hb : budget ≤ core.taskQueue.length) :
    ∃ core' done, runTasks poll budget core = .ok (core', (core.taskQueue.take budget).map Prod.fst) ∧
      core'.taskQueue = core.taskQueue.drop budget ++ done ∧ core'.shutdown = core.shutdown := by
  induction budget generalizing core with
  | zero => exact ⟨core, [], rfl, by simp, rfl⟩
  | succ budget ih =>
    obtain ⟨t, rest, hq⟩ : ∃ t rest, core.taskQueue = t :: rest :=
      List.exists_cons_of_length_pos (by omega)
    obtain ⟨id, future⟩ := t
    rw [hq, List.length_cons] at hb
    cases hp : poll future with
    | ready v =>
      obtain ⟨core', done, hr, htq, hsd⟩ :=
        ih { core with taskQueue := rest, localTaskCount := core.localTaskCount - 1 } (by simpa using hb)
      refine ⟨core', done, ?_, by simpa [hq] using htq, hsd⟩
      simp only [CpuCore.runTasks, hq, hp, hr]
      rfl
    | pending future' =>
      -- The pending task goes behind the `budget` tasks still to poll.
      obtain ⟨core', done, hr, htq, hsd⟩ :=
        ih { core with taskQueue := rest ++ [(id, future')] } (by simp; omega)
      refine ⟨core', (id, future') :: done, ?_, ?_, hsd⟩
      · simp only [CpuCore.runTasks, hq, hp, hr]
        simp only [List.take_append_of_le_length (by omega : budget ≤ rest.length), Except.map,
          List.take_succ_cons, List.map_cons]
      · rw [htq, hq]
        simp [List.drop_append_of_le_length (by omega : budget ≤ rest.length)]
    | panicked => exact absurd hp (hpanic future)

/-- A round of a core whose queue is empty and whose inbox holds `tasks`, at
    least 16 and fewer than 32, and then `Shutdown`: it raises the flag and
    polls the first 16 tasks only, leaving the others in its queue. -/
theorem iteration_of_shutdown (hpanic : ∀ f, poll f ≠ .panicked) (core : CpuCore σ)
    (tasks : List (TaskId × σ)) (h16 : 16 ≤ tasks.length) (h32 : tasks.length < 32)
    (hq : core.taskQueue = [])
    (hm : core.messageInbox = tasks.map (fun t => CoreMessage.task t.1 t.2) ++ [CoreMessage.shutdown]) :
    ∃ core', iteration poll core = .ok (core', (tasks.take 16).map Prod.fst) ∧
      core'.shutdown = true ∧ ∃ done, core'.taskQueue = tasks.drop 16 ++ done := by
  -- The messages: every task and the `Shutdown`, within the budget of 32.
  have hm' : (handleMessages 32 core).1 =
      { core with
        taskQueue := tasks
        messageInbox := []
        shutdown := true
        localTaskCount := core.localTaskCount + tasks.length } := by
    rw [handleMessages_tasks_shutdown core tasks [] h32 hm, hq, List.nil_append]
  -- The tasks: 16 polls.
  obtain ⟨core', done, hr, htq, hsd⟩ := runTasks_of_le poll hpanic (handleMessages 32 core).1
    (show 16 ≤ (handleMessages 32 core).1.taskQueue.length by rw [hm']; exact h16)
  rw [hm'] at hr htq hsd
  refine ⟨core', ?_, hsd, done, htq⟩
  rw [iteration, processMessages, hm']
  exact hr

/-- A core whose inbox holds `tasks`, at least 16 and fewer than 32, and then
    `Shutdown`, returns from its run loop after one round, having polled the
    first 16 tasks only: the others are left in its queue, never polled. -/
theorem run_of_shutdown (hpanic : ∀ f, poll f ≠ .panicked) (id : Nat) (tasks : List (TaskId × σ))
    (h16 : 16 ≤ tasks.length) (h32 : tasks.length < 32) (fuel : Nat) :
    ∃ core', run poll (fuel + 2)
        ⟨id, [], tasks.map (fun t => CoreMessage.task t.1 t.2) ++ [CoreMessage.shutdown], false, 0⟩ =
        some (.ok (core', (tasks.take 16).map Prod.fst)) ∧
      core'.shutdown = true ∧ ∃ done, core'.taskQueue = tasks.drop 16 ++ done := by
  set core : CpuCore σ :=
    ⟨id, [], tasks.map (fun t => CoreMessage.task t.1 t.2) ++ [CoreMessage.shutdown], false, 0⟩
  obtain ⟨core', hit, hsd, done, htq⟩ := iteration_of_shutdown poll hpanic core tasks h16 h32 rfl rfl
  -- The first round runs; the next one sees the flag up.
  have h1 : runRound poll (core, []) = .inl (core', (tasks.take 16).map Prod.fst) := by
    simp [runRound, core, hit]
  have h2 : runRound poll (core', (tasks.take 16).map Prod.fst) =
      .inr (.ok (core', (tasks.take 16).map Prod.fst)) := by
    simp [runRound, hsd]
  exact ⟨core', by rw [run, loop_succ_of_inl h1, loop_succ_of_inr h2], hsd, done, htq⟩

end CpuCore

/-- `RuntimeError`. -/
inductive RuntimeError where
  | notInitialized
  | taskFailed (message : String)
  | ioFailed
  deriving DecidableEq, Repr

/-- The states of a `MultiCoreRuntime`. -/
inductive RuntimeState where
  | initializing
  | running
  | shuttingDown
  | terminated
  deriving DecidableEq, Repr

/-- `NEXT_TASK_ID` starts at `1`. -/
def nextTaskIdStart : Nat := 1

/-- `next_task_id`: the value of `NEXT_TASK_ID`, which moves on by one. -/
def nextTaskId (counter : Nat) : TaskId × Nat := (⟨counter⟩, counter + 1)

/-- The state of a `MultiCoreRuntime`, with its cores: the inboxes its senders
    push into are those of the cores. -/
structure MultiCoreRuntime (σ : Type*) where
  numCores : Nat
  cores : List (CpuCore σ)
  state : RuntimeState
  nextCore : Nat

namespace MultiCoreRuntime

variable {σ : Type*}

/-- `MultiCoreRuntime::new` with `numCores` cores, once running; the I/O backends
    are taken to be created. -/
def new (numCores : Nat) : Except RuntimeError (MultiCoreRuntime σ) :=
  if numCores = 0 then .error (.taskFailed "Cannot create runtime with 0 CPUs")
  else .ok ⟨numCores, (List.range numCores).map CpuCore.new, .running, 0⟩

/-- `core_senders[core_id].push(message)`. -/
def push (rt : MultiCoreRuntime σ) (coreId : Nat) (message : CoreMessage σ) : MultiCoreRuntime σ :=
  { rt with
    cores := rt.cores.modify coreId fun core => { core with messageInbox := core.messageInbox ++ [message] } }

/-- `MultiCoreRuntime::spawn_on_core`. -/
def spawnOnCore (rt : MultiCoreRuntime σ) (coreId : Nat) (taskId : TaskId) (future : σ) :
    MultiCoreRuntime σ :=
  rt.push coreId (.task taskId future)

/-- `MultiCoreRuntime::spawn`, with `NEXT_TASK_ID` at `counter`: the core
    chosen round-robin. -/
def spawn (rt : MultiCoreRuntime σ) (future : σ) (counter : Nat) :
    Except RuntimeError TaskId × MultiCoreRuntime σ × Nat :=
  if rt.state ≠ .running then (.error (.taskFailed "Runtime is not running"), rt, counter)
  else
    let r := nextTaskId counter
    let coreId := rt.nextCore % rt.numCores
    (.ok r.1, { rt.spawnOnCore coreId r.1 future with nextCore := rt.nextCore + 1 }, r.2)

/-- `MultiCoreRuntime::spawn_on`, with `NEXT_TASK_ID` at `counter`. -/
def spawnOn (rt : MultiCoreRuntime σ) (coreId : Nat) (future : σ) (counter : Nat) :
    Except RuntimeError TaskId × MultiCoreRuntime σ × Nat :=
  if rt.state ≠ .running then (.error (.taskFailed "Runtime is not running"), rt, counter)
  else if rt.numCores ≤ coreId then (.error (.taskFailed s!"Invalid core ID: {coreId}"), rt, counter)
  else
    let r := nextTaskId counter
    (.ok r.1, rt.spawnOnCore coreId r.1 future, r.2)

/-- `MultiCoreRuntime::shutdown`: from a running runtime, a `Shutdown` message
    into every inbox. -/
def shutdown (rt : MultiCoreRuntime σ) : Except RuntimeError Unit × MultiCoreRuntime σ :=
  if rt.state = .shuttingDown ∨ rt.state = .terminated then (.ok (), rt)
  else if rt.state = .running then
    (.ok (), { rt with
      state := .shuttingDown
      cores := rt.cores.map fun core => { core with messageInbox := core.messageInbox ++ [.shutdown] } })
  else (.error (.taskFailed "Failed to initiate shutdown"), rt)

variable {rt : MultiCoreRuntime σ}

/-- A spawn on a running runtime returns `Ok` with the id drawn, and sends the
    task to the core `nextCore % numCores`. -/
theorem spawn_of_running (hr : rt.state = .running) (future : σ) (counter : Nat) :
    rt.spawn future counter =
      (.ok ⟨counter⟩, { rt.push (rt.nextCore % rt.numCores) (.task ⟨counter⟩ future) with
        nextCore := rt.nextCore + 1 }, counter + 1) := by
  simp [spawn, hr, spawnOnCore, nextTaskId]

/-- `shutdown` of a running runtime: a `Shutdown` at the back of every inbox. -/
theorem shutdown_of_running (hr : rt.state = .running) :
    rt.shutdown = (.ok (), { rt with
      state := .shuttingDown
      cores := rt.cores.map fun core =>
        { core with messageInbox := core.messageInbox ++ [CoreMessage.shutdown] } }) := by
  simp [shutdown, hr]

end MultiCoreRuntime

/-- What can happen to a multi-core runtime: a `spawn`, a `spawn_on` or a
    `shutdown`, from any thread, and a round of the run loop of a core. -/
inductive RuntimeEvent (σ : Type*) where
  | spawn (future : σ)
  | spawnOn (coreId : Nat) (future : σ)
  | shutdown
  | round (coreId : Nat)

/-- A runtime with `NEXT_TASK_ID`, the ids of the spawns that returned `Ok`, the
    ids of the tasks the cores polled, and the cores whose thread a panic
    ended. -/
structure RuntimeRun (σ : Type*) where
  runtime : MultiCoreRuntime σ
  counter : Nat
  accepted : List TaskId
  polled : List TaskId
  halted : List Nat

namespace RuntimeRun

variable {σ : Type*} (poll : σ → PollResult Unit σ)

/-- A running runtime, with `NEXT_TASK_ID` at its start. -/
def start (rt : MultiCoreRuntime σ) : RuntimeRun σ := ⟨rt, nextTaskIdStart, [], [], []⟩

/-- A spawn: its id recorded if it returned `Ok`. -/
def accept (s : RuntimeRun σ) (r : Except RuntimeError TaskId × MultiCoreRuntime σ × Nat) :
    RuntimeRun σ :=
  { s with
    runtime := r.2.1
    counter := r.2.2
    accepted := match r.1 with
      | .ok taskId => s.accepted ++ [taskId]
      | .error _ => s.accepted }

/-- One event. A round of a core whose loop has seen its flag, or whose thread
    has ended, does nothing. -/
def step (s : RuntimeRun σ) : RuntimeEvent σ → RuntimeRun σ
  | .spawn future => s.accept (s.runtime.spawn future s.counter)
  | .spawnOn coreId future => s.accept (s.runtime.spawnOn coreId future s.counter)
  | .shutdown => { s with runtime := s.runtime.shutdown.2 }
  | .round coreId =>
    match s.runtime.cores[coreId]? with
    | none => s
    | some core =>
      if core.shutdown ∨ coreId ∈ s.halted then s
      else
        match core.iteration poll with
        | .ok r =>
          { s with
            runtime := { s.runtime with cores := s.runtime.cores.set coreId r.1 }
            polled := s.polled ++ r.2 }
        | .error _ => { s with halted := s.halted ++ [coreId] }

/-- A run of events. -/
def run (s : RuntimeRun σ) (events : List (RuntimeEvent σ)) : RuntimeRun σ :=
  events.foldl (step poll) s

@[simp] theorem run_nil (s : RuntimeRun σ) : s.run poll [] = s := rfl

theorem run_cons (s : RuntimeRun σ) (ev : RuntimeEvent σ) (events : List (RuntimeEvent σ)) :
    s.run poll (ev :: events) = (s.step poll ev).run poll events := rfl

theorem run_append (s : RuntimeRun σ) (events events' : List (RuntimeEvent σ)) :
    s.run poll (events ++ events') = (s.run poll events).run poll events' :=
  List.foldl_append

variable {s : RuntimeRun σ} {core : CpuCore σ}

/-- Spawns on a running runtime of one core: each returns `Ok` with the next id
    of `NEXT_TASK_ID`, and pushes its task at the back of the core's inbox. -/
theorem run_spawns (hr : s.runtime.state = .running) (hn : s.runtime.numCores = 1)
    (hc : s.runtime.cores = [core]) (futures : List σ) :
    s.run poll (futures.map .spawn) =
      { s with
        runtime := { s.runtime with
          cores := [{ core with
            messageInbox := core.messageInbox ++
              (((List.range' s.counter futures.length).map TaskId.mk).zip futures).map
                fun t => CoreMessage.task t.1 t.2 }]
          nextCore := s.runtime.nextCore + futures.length }
        counter := s.counter + futures.length
        accepted := s.accepted ++ (List.range' s.counter futures.length).map TaskId.mk } := by
  induction futures generalizing s core with
  | nil =>
    rcases s with ⟨⟨_, _, _, _⟩, _, _, _, _⟩
    dsimp only at hc
    subst hc
    simp [run]
  | cons future futures ih =>
    -- The first spawn goes to the one core, with the id `counter`.
    have h1 : s.step poll (.spawn future) =
        { s with
          runtime := { s.runtime with
            cores := [{ core with messageInbox := core.messageInbox ++ [.task ⟨s.counter⟩ future] }]
            nextCore := s.runtime.nextCore + 1 }
          counter := s.counter + 1
          accepted := s.accepted ++ [⟨s.counter⟩] } := by
      simp [step, accept, MultiCoreRuntime.spawn_of_running hr, hn, MultiCoreRuntime.push, hc, Nat.mod_one]
    have hr1 : (s.step poll (.spawn future)).runtime.state = .running := by rw [h1]; exact hr
    have hn1 : (s.step poll (.spawn future)).runtime.numCores = 1 := by rw [h1]; exact hn
    rw [List.map_cons, run_cons, ih hr1 hn1 (by rw [h1]), h1]
    simp [List.range'_succ, Nat.add_assoc, Nat.add_comm 1]

/-- A round of the one core of a runtime, whose queue is empty and flag down,
    whose inbox holds `tasks`, at least 16 and fewer than 32, and then
    `Shutdown`: the core raises its flag, so its loop returns, and polls the
    first 16 tasks only. -/
theorem round_of_shutdown (hpanic : ∀ f, poll f ≠ .panicked) (tasks : List (TaskId × σ))
    (h16 : 16 ≤ tasks.length) (h32 : tasks.length < 32) (hc : s.runtime.cores = [core])
    (hq : core.taskQueue = [])
    (hm : core.messageInbox = tasks.map (fun t => CoreMessage.task t.1 t.2) ++ [CoreMessage.shutdown])
    (hf : core.shutdown = false) (hh : 0 ∉ s.halted) :
    ∃ core', s.step poll (.round 0) =
        { s with
          runtime := { s.runtime with cores := [core'] }
          polled := s.polled ++ (tasks.take 16).map Prod.fst } ∧
      core'.shutdown = true ∧ ∃ done, core'.taskQueue = tasks.drop 16 ++ done := by
  obtain ⟨core', hit, hsd, done, htq⟩ :=
    CpuCore.iteration_of_shutdown poll hpanic core tasks h16 h32 hq hm
  refine ⟨core', ?_, hsd, done, htq⟩
  simp [step, hc, hf, hh, hit]

end RuntimeRun

/-! ## Shutting down -/

section shutdown

variable {β σ R : Type*}

/-- Shutting down loses accepted tasks. On a runtime of one core, 17 to 31 spawns
    and then a `shutdown`: every spawn returns `Ok`, and the next round of the
    core handles every task and the `Shutdown`, raises the flag, so that its
    loop returns, and polls the first 16 tasks only. On a `Cpu` whose `tick`
    leaves a task in the ready queue (one that an I/O completion woke), a
    `SubmitTask` and then a `Shutdown` sent during the `tick` are both handled
    by the drain of the same iteration: the task is put in the map, `running`
    goes down, and `Cpu::run` returns before polling it. -/
theorem shutdown_loses_accepted_tasks (corePoll : σ → PollResult Unit σ)
    (hpanic : ∀ f, corePoll f ≠ .panicked) (poll : σ → TaskId → PollStep β σ) (cpu : Cpu β σ R)
    (fuel : Nat) (now : Instant) (completions : Option (List (IoToken × R)))
    (hready : ∃ cpu₁ b, Cpu.tick poll fuel now completions cpu = some (.ok (cpu₁, b)) ∧ cpu₁.readyQueue ≠ []) :
    (∀ rt : MultiCoreRuntime σ, MultiCoreRuntime.new 1 = .ok rt →
      ∀ futures : List σ, 16 < futures.length → futures.length < 32 →
        let s := (RuntimeRun.start rt).run corePoll (futures.map .spawn ++ [.shutdown, .round 0])
        s.accepted = (List.range' nextTaskIdStart futures.length).map TaskId.mk ∧
        s.polled = (List.range' nextTaskIdStart 16).map TaskId.mk ∧
        s.runtime.cores.map CpuCore.shutdown = [true]) ∧
    ∀ (k : TaskId) (g : σ), ∃ cpu', Cpu.runIteration poll fuel now completions [.submitTask k g, .shutdown] cpu =
      some (.ok cpu') ∧ cpu'.running = false ∧ cpu'.taskQueue.lookup k = some ⟨k, g, false⟩ := by
  refine ⟨fun rt hrt futures h16 h32 => ?_, fun k g => ?_⟩
  · -- The runtime: one core, running, its inbox empty.
    have hrt' : rt = ⟨1, [CpuCore.new 0], .running, 0⟩ := by
      simp only [MultiCoreRuntime.new, one_ne_zero, if_false, Except.ok.injEq] at hrt
      exact hrt.symm
    subst hrt'
    set ids := (List.range' nextTaskIdStart futures.length).map TaskId.mk
    set tasks := ids.zip futures
    have hlen : tasks.length = futures.length := by simp [tasks, ids]
    -- After the spawns, all accepted, the inbox holds the tasks in order; after
    -- `shutdown`, its message behind them.
    set inbox := tasks.map fun t => CoreMessage.task t.1 t.2
    set s₁ : RuntimeRun σ :=
      ⟨⟨1, [{ CpuCore.new 0 with messageInbox := inbox }], .running, futures.length⟩,
        nextTaskIdStart + futures.length, ids, [], []⟩
    set s₂ : RuntimeRun σ :=
      ⟨⟨1, [{ CpuCore.new 0 with messageInbox := inbox ++ [CoreMessage.shutdown] }], .shuttingDown,
        futures.length⟩, nextTaskIdStart + futures.length, ids, [], []⟩
    have h1 : (RuntimeRun.start ⟨1, [CpuCore.new 0], .running, 0⟩).run corePoll (futures.map .spawn) = s₁ := by
      rw [RuntimeRun.run_spawns corePoll (s := RuntimeRun.start ⟨1, [CpuCore.new 0], .running, 0⟩) rfl rfl rfl]
      simp [RuntimeRun.start, CpuCore.new, s₁, inbox, tasks, ids]
    have h2 : s₁.step corePoll .shutdown = s₂ := by
      simp [s₁, s₂, RuntimeRun.step, MultiCoreRuntime.shutdown_of_running]
    -- The round of the core.
    obtain ⟨core', hround, hsd, -⟩ := RuntimeRun.round_of_shutdown corePoll hpanic tasks (by omega) (by omega)
      (s := s₂) rfl rfl rfl rfl List.not_mem_nil
    -- What the core polled: the first 16 ids.
    have hpolled : (tasks.take 16).map Prod.fst = (List.range' nextTaskIdStart 16).map TaskId.mk := by
      rw [List.map_take, List.map_fst_zip (by simp [ids]), ← List.map_take,
        List.take_range'_of_length_ge (by omega)]
    dsimp only
    rw [RuntimeRun.run_append, h1, RuntimeRun.run_cons, h2, RuntimeRun.run_cons, hround,
      RuntimeRun.run_nil]
    exact ⟨rfl, (List.nil_append _).trans hpolled, by simp [hsd]⟩
  · obtain ⟨cpu₁, b, htick, hq⟩ := hready
    exact Cpu.runIteration_submitTask_shutdown htick hq g

/-- The failing inputs: tasks that stay pending; and a `Cpu` of id 0 whose one
    task, of id 0, waits on the operation of token 1, which completes during the
    `tick`. -/
theorem shutdown_loses_accepted_tasks_io_woken :
    (∀ f : Unit, (fun _ => .pending ()) f ≠ (.panicked : PollResult Unit Unit)) ∧
    (∃ cpu₁ b, Cpu.tick (fun _ _ => ⟨.pending (), []⟩ : Unit → TaskId → PollStep Unit Unit) 1 0
        (some [(⟨1⟩, ())])
        ({ (Cpu.new 0 Chan.new 0 : Cpu Unit Unit Unit) with
            taskQueue := (∅ : AList fun _ : TaskId => Task Unit).insert ⟨0⟩ ⟨⟨0⟩, (), false⟩
            ioState := ⟨(∅ : AList fun _ : IoToken => TaskId).insert ⟨1⟩ ⟨0⟩, ∅⟩ } : Cpu Unit Unit Unit) =
          some (.ok (cpu₁, b)) ∧ cpu₁.readyQueue ≠ []) ∧
    ((∀ rt : MultiCoreRuntime Unit, MultiCoreRuntime.new 1 = .ok rt →
      ∀ futures : List Unit, 16 < futures.length → futures.length < 32 →
        let s := (RuntimeRun.start rt).run (fun _ => .pending ()) (futures.map .spawn ++ [.shutdown, .round 0])
        s.accepted = (List.range' nextTaskIdStart futures.length).map TaskId.mk ∧
        s.polled = (List.range' nextTaskIdStart 16).map TaskId.mk ∧
        s.runtime.cores.map CpuCore.shutdown = [true]) ∧
    ∀ (k : TaskId) (g : Unit), ∃ cpu',
      Cpu.runIteration (fun _ _ => ⟨.pending (), []⟩ : Unit → TaskId → PollStep Unit Unit) 1 0
        (some [(⟨1⟩, ())]) [.submitTask k g, .shutdown]
        ({ (Cpu.new 0 Chan.new 0 : Cpu Unit Unit Unit) with
            taskQueue := (∅ : AList fun _ : TaskId => Task Unit).insert ⟨0⟩ ⟨⟨0⟩, (), false⟩
            ioState := ⟨(∅ : AList fun _ : IoToken => TaskId).insert ⟨1⟩ ⟨0⟩, ∅⟩ } : Cpu Unit Unit Unit) =
          some (.ok cpu') ∧ cpu'.running = false ∧ cpu'.taskQueue.lookup k = some ⟨k, g, false⟩) := by
  have hpanic : ∀ f : Unit, (fun _ => .pending ()) f ≠ (.panicked : PollResult Unit Unit) :=
    fun _ => by simp
  -- The completion wakes the task: the ready queue is `[0]` after the `tick`.
  have hready : ∃ cpu₁ b, Cpu.tick (fun _ _ => ⟨.pending (), []⟩ : Unit → TaskId → PollStep Unit Unit) 1 0
        (some [(⟨1⟩, ())])
        ({ (Cpu.new 0 Chan.new 0 : Cpu Unit Unit Unit) with
            taskQueue := (∅ : AList fun _ : TaskId => Task Unit).insert ⟨0⟩ ⟨⟨0⟩, (), false⟩
            ioState := ⟨(∅ : AList fun _ : IoToken => TaskId).insert ⟨1⟩ ⟨0⟩, ∅⟩ } : Cpu Unit Unit Unit) =
          some (.ok (cpu₁, b)) ∧ cpu₁.readyQueue ≠ [] :=
    ⟨_, _, rfl, by decide⟩
  exact ⟨hpanic, hready, shutdown_loses_accepted_tasks _ hpanic _ _ 1 0 _ hready⟩

end shutdown

end Miniss
