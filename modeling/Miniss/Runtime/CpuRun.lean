import Miniss.Runtime.Cpu
import Miniss.Runtime.ExecutorRun

/-!
# Runs of a CPU

What can happen to a `Cpu` (`CpuEvent`): a local `spawn`; a message sent to its
channel by another thread; one round of `process_messages` — also the message
`Cpu::run` receives when its ready queue is empty —, which takes the front
message and handles it; the timers of a `tick`; a round of its ready loop
(`pop`); the I/O completions of a `tick`; a timer scheduled for a task
(`Cpu::schedule_timer`); an `IoFuture` of a task polled, which registers the
task's waker; and a wake-up of a task through a clone of its waker held
elsewhere.

A `CpuTraced` keeps beside the CPU a ghost record of its polls, of the tasks
woken since the start of their latest poll, of the ids whose task a
cancellation removed, of the ids inserted into the map, and whether a poll has
panicked. Such a panic unwinds out of `Cpu::run`, and its thread ends: nothing
happens to the CPU after it.

A run refines the `Ledger` of the ready queue, so along every run in which no
id is inserted into the map twice it keeps the ledger's invariant
(`CpuTraced.Inv.run`). A `tick` that returns is a run of these events
(`tick_eq_run`).
-/

namespace Miniss

/-- What can happen to a CPU. -/
inductive CpuEvent (σ R : Type*) where
  | spawn (future : σ)
  | send (message : CrossCpuMessage σ)
  | receive
  | expireTimers (now : Instant)
  | pop
  | pollIo (completions : Option (List (IoToken × R)))
  | scheduleTimer (instant : Instant) (taskId : TaskId) (counter : Nat)
  | pollIoFuture (token : IoToken) (taskId : TaskId)
  | wake (taskId : TaskId)

namespace CrossCpuMessage

variable {σ : Type*}

/-- The id under which a message inserts a task when handled. -/
def inserts : CrossCpuMessage σ → List TaskId
  | .submitTask taskId _ => [taskId]
  | _ => []

/-- The id whose task a message removes when handled. -/
def cancels : CrossCpuMessage σ → List TaskId
  | .cancelTask taskId => [taskId]
  | _ => []

end CrossCpuMessage

/-- A CPU with the ghost record of its polls, wakes, cancellations and
    insertions, and whether a poll has panicked. -/
structure CpuTraced (β σ R : Type*) where
  cpu : Cpu β σ R
  polls : List (TaskId × Outcome)
  woken : List TaskId
  dropped : List TaskId
  inserted : List TaskId
  unwound : Bool

namespace CpuTraced

variable {β σ R : Type*}

/-- A new CPU, with an empty record. -/
def start (id : Nat) (messageReceiver : Chan (CrossCpuMessage σ)) (now : Instant) :
    CpuTraced β σ R :=
  ⟨.new id messageReceiver now, [], [], [], [], false⟩

/-- The tasks `poll_io_completions` wakes, given what the backend returned. -/
def ioWoken (cpu : Cpu β σ R) : Option (List (IoToken × R)) → List TaskId
  | some completions => if completions.isEmpty then [] else (cpu.ioState.deliver completions).2
  | none => []

variable (poll : σ → TaskId → PollStep β σ)

/-- A round of the ready loop: a panic unwinds. -/
def pop (s : CpuTraced β σ R) : CpuTraced β σ R :=
  match s.cpu.readyQueue with
  | [] => s
  | taskId :: rest =>
    let cpu := { s.cpu with readyQueue := rest }
    match cpu.runTask poll taskId with
    | .error _ => { s with unwound := true }
    | .ok r =>
      if taskId ∈ cpu.cancelledTasks then { s with cpu := r.1, dropped := s.dropped ++ [taskId] }
      else
        match cpu.taskQueue.lookup taskId with
        | none => { s with cpu := r.1 }
        | some task =>
          let ps := poll task.future taskId
          { s with
            cpu := r.1
            polls := s.polls ++ [(taskId, ps.result.outcome)]
            woken := s.woken.filter (· ≠ taskId) ++ ps.wakes }

/-- What an event does to a CPU that runs. -/
def perform (s : CpuTraced β σ R) : CpuEvent σ R → CpuTraced β σ R
  | .spawn future =>
    { s with cpu := (s.cpu.spawn future).1, inserted := s.inserted ++ [⟨s.cpu.nextTaskId⟩] }
  | .send message =>
    { s with cpu := { s.cpu with messageReceiver := s.cpu.messageReceiver.send message } }
  | .receive =>
    match s.cpu.messageReceiver.tryRecv with
    | (.ok message, rx) =>
      { s with
        cpu := ({ s.cpu with messageReceiver := rx } : Cpu β σ R).handleMessage message
        inserted := s.inserted ++ message.inserts
        dropped := s.dropped ++ message.cancels }
    | (.error _, rx) => { s with cpu := { s.cpu with messageReceiver := rx } }
  | .expireTimers now =>
    -- `expire` always returns on the valid wheel of a CPU (`TimerWheel.expire_eq`).
    match s.cpu.timer.expire now [] with
    | some r =>
      { s with
        cpu := { s.cpu with timer := r.1, readyQueue := s.cpu.readyQueue ++ r.2 }
        woken := s.woken ++ r.2 }
    | none => s
  | .pop => s.pop poll
  | .pollIo completions =>
    { s with
      cpu := (s.cpu.pollIoCompletions completions).1
      woken := s.woken ++ ioWoken s.cpu completions }
  | .scheduleTimer instant taskId counter =>
    { s with cpu := (s.cpu.scheduleTimer instant taskId counter).1 }
  | .pollIoFuture token taskId =>
    { s with cpu := { s.cpu with ioState := (IoFuture.poll s.cpu.ioState token taskId).2 } }
  | .wake taskId =>
    -- `MinissWaker::wake_impl` pushes the id on the ready queue.
    { s with
      cpu := { s.cpu with readyQueue := s.cpu.readyQueue ++ [taskId] }
      woken := s.woken ++ [taskId] }

/-- One event; after a panic, nothing happens. -/
def step (s : CpuTraced β σ R) (ev : CpuEvent σ R) : CpuTraced β σ R :=
  if s.unwound then s else s.perform poll ev

/-- A run of events. -/
def run (s : CpuTraced β σ R) (events : List (CpuEvent σ R)) : CpuTraced β σ R :=
  events.foldl (step poll) s

/-- The ledger of the ready queue of a traced CPU. -/
def ledger (s : CpuTraced β σ R) : Ledger TaskId where
  live := {k | k ∈ s.cpu.taskQueue}
  queue := s.cpu.readyQueue
  polls := s.polls
  woken := {k | k ∈ s.woken}
  dropped := {k | k ∈ s.dropped}

/-- The invariant of a traced CPU: the ledger's, and every id in the map or
    polled was inserted. -/
structure Inv (s : CpuTraced β σ R) : Prop where
  ledger : s.ledger.Inv
  tasks_inserted : ∀ k ∈ s.cpu.taskQueue, k ∈ s.inserted
  polls_inserted : ∀ p ∈ s.polls, p.1 ∈ s.inserted

variable {poll} {s : CpuTraced β σ R} {taskId : TaskId} {rest : List TaskId}

theorem run_append (events events' : List (CpuEvent σ R)) :
    s.run poll (events ++ events') = (s.run poll events).run poll events' := by
  simp [run, List.foldl_append]

theorem step_of_unwound (h : s.unwound = true) (ev : CpuEvent σ R) : s.step poll ev = s := by
  rw [step, if_pos h]

theorem step_of_running (h : s.unwound = false) (ev : CpuEvent σ R) :
    s.step poll ev = s.perform poll ev := by
  rw [step, if_neg (by simp [h])]

theorem perform_receive_of_nil (hb : s.cpu.messageReceiver.buffer = []) :
    s.perform poll .receive = s := by
  simp only [perform, Chan.tryRecv_of_nil hb]

theorem perform_receive_of_cons {message : CrossCpuMessage σ} {ms : List (CrossCpuMessage σ)}
    (hb : s.cpu.messageReceiver.buffer = message :: ms) :
    s.perform poll .receive =
      { s with
        cpu := ({ s.cpu with messageReceiver := { s.cpu.messageReceiver with buffer := ms } } :
          Cpu β σ R).handleMessage message
        inserted := s.inserted ++ message.inserts
        dropped := s.dropped ++ message.cancels } := by
  simp only [perform, Chan.tryRecv_of_cons hb]

/-! ## Rounds of the ready loop -/

section pop

variable {r : Cpu β σ R × Bool}

theorem pop_of_nil (hq : s.cpu.readyQueue = []) : s.pop poll = s := by
  rw [pop, hq]

theorem pop_of_error {e : TaskId} (hq : s.cpu.readyQueue = taskId :: rest)
    (h : ({ s.cpu with readyQueue := rest } : Cpu β σ R).runTask poll taskId = .error e) :
    s.pop poll = { s with unwound := true } := by
  simp only [pop, hq, h]

theorem pop_of_cancelled (hq : s.cpu.readyQueue = taskId :: rest)
    (h : ({ s.cpu with readyQueue := rest } : Cpu β σ R).runTask poll taskId = .ok r)
    (hc : taskId ∈ s.cpu.cancelledTasks) :
    s.pop poll = { s with cpu := r.1, dropped := s.dropped ++ [taskId] } := by
  simp only [pop, hq, h]
  exact if_pos hc

theorem pop_of_lookup_none (hq : s.cpu.readyQueue = taskId :: rest)
    (h : ({ s.cpu with readyQueue := rest } : Cpu β σ R).runTask poll taskId = .ok r)
    (hc : taskId ∉ s.cpu.cancelledTasks) (hl : s.cpu.taskQueue.lookup taskId = none) :
    s.pop poll = { s with cpu := r.1 } := by
  simp only [pop, hq, h]
  rw [if_neg hc]
  simp only [hl]

theorem pop_of_lookup_some {task : Task σ} (hq : s.cpu.readyQueue = taskId :: rest)
    (h : ({ s.cpu with readyQueue := rest } : Cpu β σ R).runTask poll taskId = .ok r)
    (hc : taskId ∉ s.cpu.cancelledTasks) (hl : s.cpu.taskQueue.lookup taskId = some task) :
    s.pop poll = { s with
      cpu := r.1
      polls := s.polls ++ [(taskId, (poll task.future taskId).result.outcome)]
      woken := s.woken.filter (· ≠ taskId) ++ (poll task.future taskId).wakes } := by
  simp only [pop, hq, h]
  rw [if_neg hc]
  simp only [hl]

variable (poll) in
/-- What a round of the ready loop does to the map, the marks and the
    records: nothing; the removal of the task of a marked id, whose mark is
    forgotten; or the poll of a task in the map, which stays there iff
    pending. -/
theorem pop_cases (s : CpuTraced β σ R) :
    (s.pop poll).inserted = s.inserted ∧
    (s.pop poll).cpu.messageReceiver = s.cpu.messageReceiver ∧
    (((s.pop poll).cpu.taskQueue = s.cpu.taskQueue ∧
        (s.pop poll).cpu.cancelledTasks = s.cpu.cancelledTasks ∧
        (s.pop poll).dropped = s.dropped ∧ (s.pop poll).polls = s.polls) ∨
      (∃ j ∈ s.cpu.readyQueue, j ∈ s.cpu.cancelledTasks ∧
        (s.pop poll).cpu.taskQueue = s.cpu.taskQueue.erase j ∧
        (s.pop poll).cpu.cancelledTasks = s.cpu.cancelledTasks.erase j ∧
        (s.pop poll).dropped = s.dropped ++ [j] ∧ (s.pop poll).polls = s.polls) ∨
      (∃ j o, j ∉ s.cpu.cancelledTasks ∧ j ∈ s.cpu.taskQueue ∧
        (∀ i, i ∈ (s.pop poll).cpu.taskQueue ↔
          i ∈ s.cpu.taskQueue ∧ (i = j → o = Outcome.pending)) ∧
        (s.pop poll).cpu.cancelledTasks = s.cpu.cancelledTasks ∧
        (s.pop poll).dropped = s.dropped ∧ (s.pop poll).polls = s.polls ++ [(j, o)])) := by
  cases hq : s.cpu.readyQueue with
  | nil =>
    rw [pop_of_nil hq]
    exact ⟨rfl, rfl, .inl ⟨rfl, rfl, rfl, rfl⟩⟩
  | cons taskId rest =>
    cases hr : ({ s.cpu with readyQueue := rest } : Cpu β σ R).runTask poll taskId with
    | error e =>
      rw [pop_of_error hq hr]
      exact ⟨rfl, rfl, .inl ⟨rfl, rfl, rfl, rfl⟩⟩
    | ok r =>
      by_cases hc : taskId ∈ s.cpu.cancelledTasks
      · rw [show ({ s.cpu with readyQueue := rest } : Cpu β σ R).runTask poll taskId = _
          from Cpu.runTask_of_cancelled hc] at hr
        cases hr
        rw [pop_of_cancelled hq (Cpu.runTask_of_cancelled hc) hc]
        exact ⟨rfl, rfl, .inr (.inl ⟨taskId, by simp, hc, rfl, rfl, rfl, rfl⟩)⟩
      cases hl : s.cpu.taskQueue.lookup taskId with
      | none =>
        rw [show ({ s.cpu with readyQueue := rest } : Cpu β σ R).runTask poll taskId = _
          from Cpu.runTask_of_lookup_none hc hl] at hr
        cases hr
        rw [pop_of_lookup_none hq (Cpu.runTask_of_lookup_none hc hl) hc hl]
        exact ⟨rfl, rfl, .inl ⟨rfl, rfl, rfl, rfl⟩⟩
      | some task =>
        have hc' : taskId ∉ ({ s.cpu with readyQueue := rest } : Cpu β σ R).cancelledTasks := hc
        obtain ⟨cpu', hok, -, hcc, hmem⟩ :=
          Cpu.runTask_of_lookup_some hc' hl (Cpu.isPanicked_of_runTask_ok hc' hl hr)
        rw [hr] at hok
        cases hok
        have hrx : cpu'.messageReceiver = s.cpu.messageReceiver := (Cpu.messageReceiver_runTask hr :)
        rw [pop_of_lookup_some hq hr hc hl]
        exact ⟨rfl, hrx, .inr (.inr ⟨taskId, _, hc, AList.lookup_isSome.1 (by simp [hl]), hmem, hcc,
          rfl, rfl⟩)⟩

end pop

/-! ## The ledger -/

theorem ledger_start (id : Nat) (messageReceiver : Chan (CrossCpuMessage σ)) (now : Instant) :
    (start id messageReceiver now : CpuTraced β σ R).ledger = Ledger.empty := by
  simp only [ledger, start, Cpu.new, Ledger.empty]
  congr 1
  · ext k
    simp [AList.mem_keys]
  · ext k
    simp
  · ext k
    simp

/-- A step that only pushes `ws` onto the ready queue, as woken, wakes them in
    the ledger. -/
theorem ledger_of_wakes {s' : CpuTraced β σ R} {ws : List TaskId}
    (htq : s'.cpu.taskQueue = s.cpu.taskQueue) (hrq : s'.cpu.readyQueue = s.cpu.readyQueue ++ ws)
    (hp : s'.polls = s.polls) (hw : s'.woken = s.woken ++ ws) (hd : s'.dropped = s.dropped) :
    s'.ledger = s.ledger.wakes ws := by
  simp only [ledger, Ledger.wakes, htq, hrq, hp, hw, hd]
  congr 1
  ext k
  simp

theorem ledger_insert {s' : CpuTraced β σ R} {task : Task σ}
    (htq : s'.cpu.taskQueue = s.cpu.taskQueue.insert taskId task)
    (hrq : s'.cpu.readyQueue = s.cpu.readyQueue ++ [taskId])
    (hp : s'.polls = s.polls) (hw : s'.woken = s.woken) (hd : s'.dropped = s.dropped) :
    s'.ledger = s.ledger.add taskId := by
  simp only [ledger, Ledger.add, htq, hrq, hp, hw, hd]
  congr 1
  ext k
  simp [AList.mem_insert]

theorem ledger_remove {s' : CpuTraced β σ R}
    (htq : s'.cpu.taskQueue = s.cpu.taskQueue.erase taskId)
    (hrq : s'.cpu.readyQueue = s.cpu.readyQueue)
    (hp : s'.polls = s.polls) (hw : s'.woken = s.woken) (hd : s'.dropped = s.dropped ++ [taskId]) :
    s'.ledger = s.ledger.drop taskId := by
  simp only [ledger, Ledger.drop, htq, hrq, hp, hw, hd]
  congr 1
  · ext k
    simp [AList.mem_erase, and_comm]
  · ext k
    simp [or_comm]

theorem ledger_pop_of_cancelled (hq : s.cpu.readyQueue = taskId :: rest)
    (hc : taskId ∈ s.cpu.cancelledTasks) : (s.pop poll).ledger = (s.ledger.drop taskId).skip := by
  rw [pop_of_cancelled hq (Cpu.runTask_of_cancelled hc) hc]
  simp only [ledger, Ledger.drop, Ledger.skip, Cpu.removeTask, hq, List.tail_cons]
  congr 1
  · ext k
    simp [AList.mem_erase, and_comm]
  · ext k
    simp [or_comm]

theorem ledger_pop_of_lookup_none (hq : s.cpu.readyQueue = taskId :: rest)
    (hc : taskId ∉ s.cpu.cancelledTasks) (hl : s.cpu.taskQueue.lookup taskId = none) :
    (s.pop poll).ledger = s.ledger.skip := by
  rw [pop_of_lookup_none hq
    (Cpu.runTask_of_lookup_none hc hl) hc hl]
  simp [ledger, Ledger.skip, hq]

theorem ledger_pop_of_lookup_some {task : Task σ} {r : Cpu β σ R × Bool}
    (hq : s.cpu.readyQueue = taskId :: rest)
    (hr : ({ s.cpu with readyQueue := rest } : Cpu β σ R).runTask poll taskId = .ok r)
    (hc : taskId ∉ s.cpu.cancelledTasks) (hl : s.cpu.taskQueue.lookup taskId = some task) :
    (s.pop poll).ledger = s.ledger.poll taskId (poll task.future taskId).result.outcome
      (poll task.future taskId).wakes := by
  have hc' : taskId ∉ ({ s.cpu with readyQueue := rest } : Cpu β σ R).cancelledTasks := hc
  obtain ⟨cpu', hok, hrq, -, hmem⟩ :=
    Cpu.runTask_of_lookup_some hc' hl (Cpu.isPanicked_of_runTask_ok hc' hl hr)
  rw [hr] at hok
  cases hok
  rw [pop_of_lookup_some hq hr hc hl]
  simp only [ledger, Ledger.poll, hq, List.tail_cons, hrq]
  congr 1
  · ext k
    rw [Set.mem_ofPred_eq, hmem k]
    by_cases ho : (poll task.future taskId).result.outcome = .pending
    · simp [ho]
    · simp [ho]
  · ext k
    simp [and_comm]

/-! ## The invariant -/

theorem inv_start (id : Nat) (messageReceiver : Chan (CrossCpuMessage σ)) (now : Instant) :
    (start id messageReceiver now : CpuTraced β σ R).Inv where
  ledger := ledger_start id messageReceiver now ▸ Ledger.inv_empty
  tasks_inserted _ hk := absurd hk (AList.notMem_empty _)
  polls_inserted _ hp := absurd hp List.not_mem_nil

theorem not_mem_of_nodup_append_singleton {l : List TaskId} {k : TaskId} (h : (l ++ [k]).Nodup) :
    k ∉ l :=
  ((List.nodup_concat l k).1 (by rwa [List.concat_eq_append])).1

/-- The invariant survives a step that only pushes onto the ready queue. -/
theorem Inv.of_wakes (h : s.Inv) {s' : CpuTraced β σ R} (ws : List TaskId)
    (htq : s'.cpu.taskQueue = s.cpu.taskQueue) (hrq : s'.cpu.readyQueue = s.cpu.readyQueue ++ ws)
    (hp : s'.polls = s.polls) (hw : s'.woken = s.woken ++ ws) (hd : s'.dropped = s.dropped)
    (hi : s'.inserted = s.inserted) : s'.Inv where
  ledger := ledger_of_wakes htq hrq hp hw hd ▸ h.ledger.wakes ws
  tasks_inserted k hk := hi ▸ h.tasks_inserted k (htq ▸ hk)
  polls_inserted p hp' := hi ▸ h.polls_inserted p (hp ▸ hp')

/-- The invariant survives the insertion of a task under an id never inserted. -/
theorem Inv.of_insert (h : s.Inv) {s' : CpuTraced β σ R} {task : Task σ}
    (hfresh : taskId ∉ s.inserted)
    (htq : s'.cpu.taskQueue = s.cpu.taskQueue.insert taskId task)
    (hrq : s'.cpu.readyQueue = s.cpu.readyQueue ++ [taskId])
    (hp : s'.polls = s.polls) (hw : s'.woken = s.woken) (hd : s'.dropped = s.dropped)
    (hi : s'.inserted = s.inserted ++ [taskId]) : s'.Inv where
  ledger := ledger_insert htq hrq hp hw hd ▸
    h.ledger.add fun hmem => hfresh (h.polls_inserted _ hmem)
  tasks_inserted k hk := by
    rw [htq, AList.mem_insert] at hk
    rw [hi]
    rcases hk with rfl | hk
    · exact List.mem_append_right _ (List.mem_singleton_self _)
    · exact List.mem_append_left _ (h.tasks_inserted k hk)
  polls_inserted p hp' := hi ▸ List.mem_append_left _ (h.polls_inserted p (hp ▸ hp'))

/-- The invariant survives the removal of a task by a cancellation. -/
theorem Inv.of_remove (h : s.Inv) {s' : CpuTraced β σ R}
    (htq : s'.cpu.taskQueue = s.cpu.taskQueue.erase taskId)
    (hrq : s'.cpu.readyQueue = s.cpu.readyQueue)
    (hp : s'.polls = s.polls) (hw : s'.woken = s.woken) (hd : s'.dropped = s.dropped ++ [taskId])
    (hi : s'.inserted = s.inserted) : s'.Inv where
  ledger := ledger_remove htq hrq hp hw hd ▸ h.ledger.drop taskId
  tasks_inserted k hk := by
    rw [htq, AList.mem_erase] at hk
    exact hi ▸ h.tasks_inserted k hk.2
  polls_inserted p hp' := hi ▸ h.polls_inserted p (hp ▸ hp')

theorem Inv.spawn (h : s.Inv) (future : σ) (hfresh : ⟨s.cpu.nextTaskId⟩ ∉ s.inserted) :
    (s.perform poll (.spawn future)).Inv :=
  h.of_insert hfresh rfl rfl rfl rfl rfl rfl

theorem Inv.receive (h : s.Inv) (hfresh : (s.perform poll .receive).inserted.Nodup) :
    (s.perform poll .receive).Inv := by
  cases hb : s.cpu.messageReceiver.buffer with
  | nil =>
    rw [perform_receive_of_nil hb]
    exact h
  | cons message ms =>
    rw [perform_receive_of_cons hb] at hfresh ⊢
    cases message with
    | submitTask taskId task =>
      exact h.of_insert (not_mem_of_nodup_append_singleton hfresh) rfl rfl rfl rfl
        (by simp [CrossCpuMessage.cancels]) rfl
    | shutdown =>
      exact h.of_wakes [] rfl (by simp [Cpu.handleMessage]) rfl (by simp)
        (by simp [CrossCpuMessage.cancels]) (by simp [CrossCpuMessage.inserts])
    | ping replyTo =>
      exact h.of_wakes [] rfl (by simp [Cpu.handleMessage]) rfl (by simp)
        (by simp [CrossCpuMessage.cancels]) (by simp [CrossCpuMessage.inserts])
    | cancelTask taskId =>
      exact h.of_remove rfl rfl rfl rfl rfl (by simp [CrossCpuMessage.inserts])

theorem Inv.pop (h : s.Inv) : (s.pop poll).Inv := by
  cases hq : s.cpu.readyQueue with
  | nil => rw [pop_of_nil hq]; exact h
  | cons taskId rest =>
    have hq' : s.ledger.queue = taskId :: rest := hq
    cases hr : ({ s.cpu with readyQueue := rest } : Cpu β σ R).runTask poll taskId with
    | error e => rw [pop_of_error hq hr]; exact ⟨h.ledger, h.tasks_inserted, h.polls_inserted⟩
    | ok r =>
      by_cases hc : taskId ∈ s.cpu.cancelledTasks
      · -- A cancelled id: its task, if any, is removed, and the id skipped.
        have hled : (s.pop poll).ledger = _ := ledger_pop_of_cancelled hq hc
        rw [pop_of_cancelled hq hr hc] at hled ⊢
        have hok : ({ s.cpu with readyQueue := rest } : Cpu β σ R).runTask poll taskId = _ :=
          Cpu.runTask_of_cancelled hc
        rw [hok] at hr
        cases hr
        refine ⟨hled ▸ (h.ledger.drop taskId).skip hq' (fun hk => hk.2 rfl), fun k hk => ?_,
          h.polls_inserted⟩
        simp only [Cpu.removeTask, AList.mem_erase] at hk
        exact h.tasks_inserted k hk.2
      cases hl : s.cpu.taskQueue.lookup taskId with
      | none =>
        -- An id whose task is gone: skipped.
        have hled : (s.pop poll).ledger = _ := ledger_pop_of_lookup_none hq hc hl
        rw [pop_of_lookup_none hq hr hc hl] at hled ⊢
        have hok : ({ s.cpu with readyQueue := rest } : Cpu β σ R).runTask poll taskId = _ :=
          Cpu.runTask_of_lookup_none hc hl
        rw [hok] at hr
        cases hr
        exact ⟨hled ▸ h.ledger.skip hq' (AList.lookup_eq_none.1 hl), h.tasks_inserted,
          h.polls_inserted⟩
      | some task =>
        -- A task polled: the ledger's poll.
        have hk : taskId ∈ s.cpu.taskQueue := AList.lookup_isSome.1 (by simp [hl])
        have hled := ledger_pop_of_lookup_some hq hr hc hl
        rw [pop_of_lookup_some hq hr hc hl] at hled ⊢
        have hsub : ∀ k ∈ r.1.taskQueue, k ∈ s.cpu.taskQueue := by
          intro k hk'
          by_cases hkt : k = taskId
          · exact hkt ▸ hk
          · obtain ⟨hlk, -, -⟩ := Cpu.runTask_frame hr hkt
            exact AList.lookup_isSome.1 (by rw [← hlk]; exact AList.lookup_isSome.2 hk')
        refine ⟨hled ▸ h.ledger.poll _ _ hq' hk, fun k hk' => h.tasks_inserted k (hsub k hk'),
          fun p hp' => ?_⟩
        rcases List.mem_append.1 hp' with hp' | hp'
        · exact h.polls_inserted p hp'
        · rw [List.mem_singleton.1 hp']
          exact h.tasks_inserted taskId hk

theorem Inv.perform (h : s.Inv) :
    ∀ ev : CpuEvent σ R, (s.perform poll ev).inserted.Nodup → (s.perform poll ev).Inv
  | .spawn future, hfresh => h.spawn future (not_mem_of_nodup_append_singleton hfresh)
  | .send message, _ => h.of_wakes [] rfl (by simp [CpuTraced.perform]) rfl (by simp [CpuTraced.perform]) rfl rfl
  | .receive, hfresh => h.receive hfresh
  | .expireTimers now, _ => by
    cases he : s.cpu.timer.expire now [] with
    | none => simp only [CpuTraced.perform, he]; exact h
    | some r => simp only [CpuTraced.perform, he]; exact h.of_wakes _ rfl rfl rfl rfl rfl rfl
  | .pop, _ => h.pop
  | .pollIo completions, _ => by
    refine h.of_wakes (ioWoken s.cpu completions) ?_ ?_ rfl rfl rfl rfl
    · cases completions with
      | none => rfl
      | some cs => by_cases hc : cs.isEmpty <;> simp [CpuTraced.perform, Cpu.pollIoCompletions, hc]
    · cases completions with
      | none => simp [CpuTraced.perform, Cpu.pollIoCompletions, ioWoken]
      | some cs => by_cases hc : cs.isEmpty <;> simp [CpuTraced.perform, Cpu.pollIoCompletions, ioWoken, hc]
  | .scheduleTimer instant taskId counter, _ =>
    h.of_wakes [] rfl (by simp [CpuTraced.perform, Cpu.scheduleTimer]) rfl (by simp [CpuTraced.perform]) rfl rfl
  | .pollIoFuture token taskId, _ =>
    h.of_wakes [] rfl (by simp [CpuTraced.perform]) rfl (by simp [CpuTraced.perform]) rfl rfl
  | .wake taskId, _ => h.of_wakes _ rfl rfl rfl rfl rfl rfl

theorem Inv.step (h : s.Inv) (ev : CpuEvent σ R) (hfresh : (s.step poll ev).inserted.Nodup) :
    (s.step poll ev).Inv := by
  cases hu : s.unwound
  · rw [step_of_running hu] at hfresh ⊢
    exact h.perform ev hfresh
  · rw [step_of_unwound hu]
    exact h

/-- A step inserts at most the ids it appends to the record. -/
theorem inserted_step (ev : CpuEvent σ R) : ∃ l, (s.step poll ev).inserted = s.inserted ++ l := by
  cases hu : s.unwound
  · rw [step_of_running hu]
    cases ev with
    | spawn future => exact ⟨_, rfl⟩
    | receive =>
      cases hb : s.cpu.messageReceiver.buffer with
      | nil => exact ⟨[], by simp [perform, Chan.tryRecv_of_nil hb]⟩
      | cons message ms => exact ⟨message.inserts, by simp [perform, Chan.tryRecv_of_cons hb]⟩
    | expireTimers now =>
      cases he : s.cpu.timer.expire now [] <;> exact ⟨[], by simp [perform, he]⟩
    | pop => exact ⟨[], by rw [perform, (pop_cases poll s).1, List.append_nil]⟩
    | _ => exact ⟨[], by simp [perform]⟩
  · exact ⟨[], by rw [step_of_unwound hu, List.append_nil]⟩

/-- Along a run in which no id is inserted into the map twice, the invariant
    holds. -/
theorem Inv.run (h : s.Inv) (events : List (CpuEvent σ R))
    (hfresh : (s.run poll events).inserted.Nodup) : (s.run poll events).Inv := by
  induction events using List.reverseRecOn with
  | nil => exact h
  | append_singleton events ev ih =>
    rw [run_append] at hfresh ⊢
    obtain ⟨l, hl⟩ : ∃ l, ((s.run poll events).step poll ev).inserted = (s.run poll events).inserted ++ l :=
      inserted_step ev
    have hfresh' : (s.run poll events).inserted.Nodup := by
      rw [show (s.run poll events).run poll [ev] = (s.run poll events).step poll ev from rfl, hl]
        at hfresh
      exact hfresh.of_append_left
    exact (ih hfresh').step ev hfresh

/-! ## A whole tick -/

@[simp] theorem run_nil : s.run poll [] = s := rfl

theorem run_cons (ev : CpuEvent σ R) (events : List (CpuEvent σ R)) :
    s.run poll (ev :: events) = (s.step poll ev).run poll events := rfl

variable (poll) in
/-- `process_messages` is a `receive` per message waiting. -/
theorem run_receives (hu : s.unwound = false) :
    let t := s.run poll (List.replicate s.cpu.messageReceiver.buffer.length .receive)
    t.cpu = s.cpu.processMessages ∧ t.unwound = false := by
  obtain ⟨l, hl⟩ : ∃ l, s.cpu.messageReceiver.buffer = l := ⟨_, rfl⟩
  rw [hl]
  -- Induction on the messages waiting, the front one handled first.
  induction l generalizing s with
  | nil => exact ⟨(Cpu.processMessages_of_nil hl).symm, hu⟩
  | cons m ms ih =>
    rw [List.length_cons, List.replicate_succ, run_cons, step_of_running hu,
      Cpu.processMessages_cons hl, perform_receive_of_cons hl]
    exact ih hu (by simp)

variable (poll) in
theorem step_expireTimers {now : Instant} {r : Cpu β σ R × Bool} (hu : s.unwound = false)
    (h : s.cpu.expireTimers now = some r) :
    (s.step poll (.expireTimers now)).cpu = r.1 ∧ (s.step poll (.expireTimers now)).unwound = false := by
  rw [step_of_running hu]
  obtain ⟨r', he, rfl⟩ := Option.map_eq_some_iff.1 h
  simp [CpuTraced.perform, he, hu]

theorem step_pop_of_ok {r : Cpu β σ R × Bool} (hu : s.unwound = false)
    (hq : s.cpu.readyQueue = taskId :: rest)
    (h : ({ s.cpu with readyQueue := rest } : Cpu β σ R).runTask poll taskId = .ok r) :
    (s.step poll .pop).cpu = r.1 ∧ (s.step poll .pop).unwound = false := by
  rw [step_of_running hu]
  show (s.pop poll).cpu = r.1 ∧ (s.pop poll).unwound = false
  by_cases hc : taskId ∈ s.cpu.cancelledTasks
  · rw [pop_of_cancelled hq h hc]
    exact ⟨rfl, hu⟩
  cases hl : s.cpu.taskQueue.lookup taskId with
  | none =>
    rw [pop_of_lookup_none hq h hc hl]
    exact ⟨rfl, hu⟩
  | some task =>
    rw [pop_of_lookup_some hq h hc hl]
    exact ⟨rfl, hu⟩

theorem step_pop_of_error {e : TaskId} (hu : s.unwound = false)
    (hq : s.cpu.readyQueue = taskId :: rest)
    (h : ({ s.cpu with readyQueue := rest } : Cpu β σ R).runTask poll taskId = .error e) :
    (s.step poll .pop).unwound = true := by
  rw [step_of_running hu]
  show (s.pop poll).unwound = true
  rw [pop_of_error hq h]

/-- The ready loop of a `tick` is a run of rounds: the CPU it leaves is the one a
    run of `pop` leaves, and a panic it ends with unwinds such a run. -/
theorem loop_tickRound_run {fuel : Nat} {b : Bool} {res : Except TaskId (Cpu β σ R × Bool)}
    (hu : s.unwound = false) (h : loop (Cpu.tickRound poll) fuel (s.cpu, b) = some res) :
    (∀ r, res = .ok r → ∃ n, (s.run poll (List.replicate n .pop)).cpu = r.1 ∧
        (s.run poll (List.replicate n .pop)).unwound = false) ∧
      (∀ e, res = .error e → ∃ n, (s.run poll (List.replicate n .pop)).unwound = true) := by
  refine loop_spec (fun st => ∃ n, (s.run poll (List.replicate n .pop)).cpu = st.1 ∧
      (s.run poll (List.replicate n .pop)).unwound = false)
    (fun res => (∀ r, res = .ok r → ∃ n, (s.run poll (List.replicate n .pop)).cpu = r.1 ∧
        (s.run poll (List.replicate n .pop)).unwound = false) ∧
      (∀ e, res = .error e → ∃ n, (s.run poll (List.replicate n .pop)).unwound = true))
    ?_ ?_ ⟨0, rfl, hu⟩ h
  · -- A round that goes on is one more `pop`.
    rintro ⟨c, b⟩ st' ⟨n, hn, hun⟩ hst
    dsimp only at hn
    subst hn
    obtain ⟨taskId, rest, r, hq, hr, rfl⟩ := Cpu.tickRound_eq_inl hst
    refine ⟨n + 1, ?_⟩
    rw [List.replicate_succ', run_append]
    exact step_pop_of_ok (r := r) hun hq hr
  · -- The loop stops on an empty queue, or with a panic, which the next `pop` meets.
    rintro ⟨c, b⟩ res ⟨n, hn, hun⟩ hst
    dsimp only at hn
    subst hn
    rcases Cpu.tickRound_eq_inr hst with ⟨-, rfl⟩ | ⟨taskId, rest, e, hq, hr, rfl⟩
    · refine ⟨fun r hr => ?_, fun e he => ?_⟩
      · cases hr
        exact ⟨n, rfl, hun⟩
      · cases he
    · refine ⟨fun r hr' => ?_, fun e' he' => ⟨n + 1, ?_⟩⟩
      · cases hr'
      · rw [List.replicate_succ', run_append]
        exact step_pop_of_error hun hq hr

/-- A `tick` that returns is a run: a `receive` per message waiting, the
    timers, rounds of the ready loop, and the I/O completions. -/
theorem tick_eq_run_of_ok {fuel : Nat} {now : Instant} {completions : Option (List (IoToken × R))}
    {r : Cpu β σ R × Bool} (hu : s.unwound = false)
    (h : Cpu.tick poll fuel now completions s.cpu = some (.ok r)) :
    ∃ n m, (s.run poll (List.replicate n CpuEvent.receive ++ [CpuEvent.expireTimers now] ++
      List.replicate m CpuEvent.pop ++ [CpuEvent.pollIo completions])).cpu = r.1 := by
  obtain ⟨⟨c, b⟩, res, he, hl, hr⟩ := Cpu.tick_eq_some h
  cases res with
  | error k => cases hr
  | ok r' =>
    simp only [Except.map, Except.ok.injEq] at hr
    subst hr
    -- The messages, then the timers, then the rounds of the ready loop.
    obtain ⟨h1, hu1⟩ := run_receives poll hu
    set t1 := s.run poll (List.replicate s.cpu.messageReceiver.buffer.length .receive)
    rw [← h1] at he
    obtain ⟨h2, hu2⟩ := step_expireTimers poll hu1 he
    set t2 := t1.step poll (.expireTimers now)
    dsimp only at h2
    rw [← h2] at hl
    obtain ⟨m, hm, hum⟩ := (loop_tickRound_run hu2 hl).1 r' rfl
    refine ⟨s.cpu.messageReceiver.buffer.length, m, ?_⟩
    simp only [List.append_assoc, run_append]
    rw [show (s.run poll (List.replicate s.cpu.messageReceiver.buffer.length .receive)).run poll
        [.expireTimers now] = t2 from rfl, run_cons, run_nil, step_of_running hum]
    show ((t2.run poll (List.replicate m .pop)).cpu.pollIoCompletions completions).1 = _
    rw [hm]

/-- A `tick` that ends with a panic is a run that unwinds. -/
theorem tick_eq_run_of_error {fuel : Nat} {now : Instant}
    {completions : Option (List (IoToken × R))} {k : TaskId} (hu : s.unwound = false)
    (h : Cpu.tick poll fuel now completions s.cpu = some (.error k)) :
    ∃ n m, (s.run poll (List.replicate n CpuEvent.receive ++ [CpuEvent.expireTimers now] ++
      List.replicate m CpuEvent.pop)).unwound = true := by
  obtain ⟨⟨c, b⟩, res, he, hl, hr⟩ := Cpu.tick_eq_some h
  cases res with
  | ok r' => cases hr
  | error k' =>
    obtain ⟨h1, hu1⟩ := run_receives poll hu
    rw [← h1] at he
    obtain ⟨h2, hu2⟩ := step_expireTimers poll hu1 he
    dsimp only at h2
    rw [← h2] at hl
    obtain ⟨m, hm⟩ := (loop_tickRound_run hu2 hl).2 k' rfl
    refine ⟨s.cpu.messageReceiver.buffer.length, m, ?_⟩
    simp only [List.append_assoc, run_append]
    exact hm

/-! ## Runs without cancellation -/

/-- No cancellation has reached the CPU or waits in its channel. -/
structure Uncancelled (s : CpuTraced β σ R) : Prop where
  buffer : ∀ k, CrossCpuMessage.cancelTask k ∉ s.cpu.messageReceiver.buffer
  cancelledTasks : s.cpu.cancelledTasks = []
  dropped : s.dropped = []

theorem Uncancelled.of_eq (h : s.Uncancelled) {s' : CpuTraced β σ R}
    (hb : s'.cpu.messageReceiver.buffer = s.cpu.messageReceiver.buffer)
    (hc : s'.cpu.cancelledTasks = s.cpu.cancelledTasks) (hd : s'.dropped = s.dropped) :
    s'.Uncancelled :=
  ⟨hb ▸ h.buffer, hc ▸ h.cancelledTasks, hd ▸ h.dropped⟩

theorem Uncancelled.pop (h : s.Uncancelled) : (s.pop poll).Uncancelled := by
  obtain ⟨-, hrx, hpop⟩ := pop_cases poll s
  rcases hpop with ⟨-, hc, hd, -⟩ | ⟨j, -, hjc, -⟩ | ⟨j, o, -, -, -, hc, hd, -⟩
  · exact h.of_eq (by rw [hrx]) hc hd
  · -- No id is marked.
    rw [h.cancelledTasks] at hjc
    exact absurd hjc List.not_mem_nil
  · exact h.of_eq (by rw [hrx]) hc hd

theorem Uncancelled.receive (h : s.Uncancelled) : (s.perform poll .receive).Uncancelled := by
  cases hb : s.cpu.messageReceiver.buffer with
  | nil =>
    rw [perform_receive_of_nil hb]
    exact h
  | cons message ms =>
    have hms : ∀ k, CrossCpuMessage.cancelTask k ∉ ms := fun k hk =>
      h.buffer k (hb ▸ List.mem_cons_of_mem _ hk)
    rw [perform_receive_of_cons hb]
    cases message with
    | cancelTask k => exact absurd (hb ▸ List.mem_cons_self) (h.buffer k)
    | submitTask taskId task =>
      exact ⟨by simpa [Cpu.handleMessage, Cpu.insertTask] using hms,
        by simpa [Cpu.handleMessage, Cpu.insertTask] using h.cancelledTasks,
        by simpa [CrossCpuMessage.cancels] using h.dropped⟩
    | shutdown =>
      exact ⟨by simpa [Cpu.handleMessage] using hms, by simpa [Cpu.handleMessage] using h.cancelledTasks,
        by simpa [CrossCpuMessage.cancels] using h.dropped⟩
    | ping replyTo =>
      exact ⟨by simpa [Cpu.handleMessage] using hms, by simpa [Cpu.handleMessage] using h.cancelledTasks,
        by simpa [CrossCpuMessage.cancels] using h.dropped⟩

theorem Uncancelled.perform (h : s.Uncancelled) :
    ∀ ev : CpuEvent σ R, (∀ k, ev ≠ .send (.cancelTask k)) → (s.perform poll ev).Uncancelled
  | .spawn future, _ => h.of_eq rfl rfl rfl
  | .send message, hev => by
    refine ⟨fun k hk => ?_, h.cancelledTasks, h.dropped⟩
    simp only [CpuTraced.perform, Chan.send_buffer, List.mem_append, List.mem_singleton] at hk
    rcases hk with hk | hk
    · exact h.buffer k hk
    · exact hev k (by rw [hk])
  | .receive, _ => h.receive
  | .expireTimers now, _ => by
    cases he : s.cpu.timer.expire now [] with
    | none => simp only [CpuTraced.perform, he]; exact h
    | some r => simp only [CpuTraced.perform, he]; exact h.of_eq rfl rfl rfl
  | .pop, _ => h.pop
  | .pollIo completions, _ => by
    refine h.of_eq ?_ ?_ rfl <;> cases completions with
    | none => rfl
    | some cs => by_cases hc : cs.isEmpty <;> simp [CpuTraced.perform, Cpu.pollIoCompletions, hc]
  | .scheduleTimer instant taskId counter, _ => h.of_eq rfl rfl rfl
  | .pollIoFuture token taskId, _ => h.of_eq rfl rfl rfl
  | .wake taskId, _ => h.of_eq rfl rfl rfl

/-- Along a run that sends no `CancelTask`, from a CPU with none waiting, no
    cancellation ever happens. -/
theorem Uncancelled.run (h : s.Uncancelled) (events : List (CpuEvent σ R))
    (hev : ∀ k, CpuEvent.send (.cancelTask k) ∉ events) : (s.run poll events).Uncancelled := by
  induction events generalizing s with
  | nil => exact h
  | cons ev events ih =>
    rw [run_cons]
    refine ih ?_ fun k hk => hev k (List.mem_cons_of_mem _ hk)
    cases hu : s.unwound
    · rw [step_of_running hu]
      exact h.perform ev fun k he => hev k (he ▸ List.mem_cons_self)
    · rw [step_of_unwound hu]
      exact h

/-! ## What the invariant gives -/

/-- Along every run of a CPU from `Cpu::new` in which no id is inserted into the
    map twice: no task is polled after a poll that finished it; a task whose
    latest poll returned pending is in the map, unless a cancellation removed
    it; a task in the map woken since the start of its latest poll has its id
    in the ready queue. -/
theorem schedule_safe (id : Nat) (rx : Chan (CrossCpuMessage σ)) (now : Instant)
    (events : List (CpuEvent σ R))
    (hfresh : ((start id rx now : CpuTraced β σ R).run poll events).inserted.Nodup) :
    let s := (start id rx now : CpuTraced β σ R).run poll events
    (∀ l₁ k l₂, s.polls = l₁ ++ (k, Outcome.finished) :: l₂ → k ∉ l₂.map Prod.fst) ∧
    (∀ l₁ k l₂, s.polls = l₁ ++ (k, Outcome.pending) :: l₂ → k ∉ l₂.map Prod.fst →
      k ∈ s.cpu.taskQueue ∨ k ∈ s.dropped) ∧
    (∀ k ∈ s.cpu.taskQueue, k ∈ s.woken → k ∈ s.cpu.readyQueue) := by
  intro s
  have h : s.Inv := (inv_start id rx now).run events hfresh
  exact ⟨h.ledger.no_poll_after_finished, h.ledger.pending_live, h.ledger.woken_queued⟩

end CpuTraced

/-! ## Both tick loops -/

variable {β σ R : Type*} (poll : σ → TaskId → PollStep β σ)

/-- The scheduling of both tick loops is safe. Along every run of an executor
    from `Executor::new`, and along every run of a CPU from `Cpu::new` that
    sends it no `CancelTask` and inserts no id into its map twice: no task is
    polled after a poll that finished it; a task whose latest poll returned
    pending is in the map; a task in the map woken since the start of its
    latest poll — during it too — has its id in the ready queue. -/
theorem ready_queue_safety (events : List (Event σ)) (id : Nat) (rx : Chan (CrossCpuMessage σ))
    (now : Instant) (cpuEvents : List (CpuEvent σ R))
    (hrx : ∀ k, CrossCpuMessage.cancelTask k ∉ rx.buffer)
    (hcancel : ∀ k, CpuEvent.send (.cancelTask k) ∉ cpuEvents)
    (hfresh : ((CpuTraced.start id rx now : CpuTraced β σ R).run poll cpuEvents).inserted.Nodup) :
    (let s := (Traced.start : Traced β σ).run poll events;
      (∀ l₁ k l₂, s.polls = l₁ ++ (k, .finished) :: l₂ → k ∉ l₂.map Prod.fst) ∧
      (∀ l₁ k l₂, s.polls = l₁ ++ (k, .pending) :: l₂ → k ∉ l₂.map Prod.fst → k ∈ s.exec.tasks) ∧
      (∀ k ∈ s.exec.tasks, k ∈ s.woken → k ∈ s.exec.readyQueue)) ∧
    (let s := (CpuTraced.start id rx now : CpuTraced β σ R).run poll cpuEvents;
      (∀ l₁ k l₂, s.polls = l₁ ++ (k, .finished) :: l₂ → k ∉ l₂.map Prod.fst) ∧
      (∀ l₁ k l₂, s.polls = l₁ ++ (k, .pending) :: l₂ → k ∉ l₂.map Prod.fst → k ∈ s.cpu.taskQueue) ∧
      (∀ k ∈ s.cpu.taskQueue, k ∈ s.woken → k ∈ s.cpu.readyQueue)) := by
  refine ⟨Traced.schedule_safe events, ?_⟩
  obtain ⟨hfin, hpend, hwoken⟩ := CpuTraced.schedule_safe id rx now cpuEvents hfresh
  -- With no cancellation, no task leaves the map without a poll.
  have hu : ((CpuTraced.start id rx now : CpuTraced β σ R).run poll cpuEvents).Uncancelled :=
    CpuTraced.Uncancelled.run ⟨hrx, rfl, rfl⟩ cpuEvents hcancel
  refine ⟨hfin, fun l₁ k l₂ hp hk => (hpend l₁ k l₂ hp hk).resolve_right ?_, hwoken⟩
  rw [hu.dropped]
  exact List.not_mem_nil

theorem ready_queue_safety_submit_wake :
    (∀ k, CrossCpuMessage.cancelTask k ∉ (Chan.new : Chan (CrossCpuMessage Unit)).buffer) ∧
    (∀ k, CpuEvent.send (.cancelTask k) ∉
      ([.spawn (), .send (.submitTask ⟨7⟩ ()), .receive, .pop, .wake ⟨0⟩, .pop] : List (CpuEvent Unit Nat))) ∧
    ((CpuTraced.start 0 Chan.new 0 : CpuTraced Nat Unit Nat).run (fun _ _ => ⟨.pending (), []⟩)
      [.spawn (), .send (.submitTask ⟨7⟩ ()), .receive, .pop, .wake ⟨0⟩, .pop]).inserted.Nodup ∧
    ((let s := (Traced.start : Traced Nat Unit).run (fun _ _ => ⟨.pending (), []⟩) [.spawn (), .pop];
      (∀ l₁ k l₂, s.polls = l₁ ++ (k, .finished) :: l₂ → k ∉ l₂.map Prod.fst) ∧
      (∀ l₁ k l₂, s.polls = l₁ ++ (k, .pending) :: l₂ → k ∉ l₂.map Prod.fst → k ∈ s.exec.tasks) ∧
      (∀ k ∈ s.exec.tasks, k ∈ s.woken → k ∈ s.exec.readyQueue)) ∧
    (let s := (CpuTraced.start 0 Chan.new 0 : CpuTraced Nat Unit Nat).run (fun _ _ => ⟨.pending (), []⟩)
      [.spawn (), .send (.submitTask ⟨7⟩ ()), .receive, .pop, .wake ⟨0⟩, .pop];
      (∀ l₁ k l₂, s.polls = l₁ ++ (k, .finished) :: l₂ → k ∉ l₂.map Prod.fst) ∧
      (∀ l₁ k l₂, s.polls = l₁ ++ (k, .pending) :: l₂ → k ∉ l₂.map Prod.fst → k ∈ s.cpu.taskQueue) ∧
      (∀ k ∈ s.cpu.taskQueue, k ∈ s.woken → k ∈ s.cpu.readyQueue))) :=
  ⟨by simp [Chan.new], by simp, by decide,
    ready_queue_safety _ [.spawn (), .pop] 0 Chan.new 0 _ (by simp [Chan.new]) (by simp) (by decide)⟩

/-- A task that stays pending and wakes itself on every poll keeps both tick
    loops going. From an executor whose map and ready queue hold it, and from a
    CPU whose map and ready queue hold it, with no message waiting and among
    tasks whose polls never panic, `tick` never returns, whatever its fuel: a
    tick does not run each ready task once. -/
theorem tick_never_returns (S : Set σ) (k : TaskId)
    (hS : ∀ f ∈ S, ∃ f', (poll f k).result = .pending f' ∧ f' ∈ S ∧ k ∈ (poll f k).wakes)
    (hpanic : ∀ f j, (poll f j).result.isPanicked = false) :
    (∀ (e : Executor β σ) (f : σ), f ∈ S → e.tasks.lookup k = some f → k ∈ e.readyQueue →
      ∀ fuel, Executor.tick poll fuel e = none) ∧
    (∀ (cpu : Cpu β σ R) (task : Task σ), task.future ∈ S → cpu.messageReceiver.buffer = [] →
      cpu.taskQueue.lookup k = some task → k ∈ cpu.readyQueue → k ∉ cpu.cancelledTasks →
      ∀ fuel now completions, Cpu.tick poll fuel now completions cpu = none) :=
  ⟨fun _ _ hf hl hq fuel => Executor.tick_eq_none S k hS hf hl hq fuel,
    fun _ _ hf hm ht hq hc fuel now completions =>
      Cpu.tick_eq_none S hS hpanic hm ht hf hq hc fuel now completions⟩

theorem tick_never_returns_self_waking :
    (∀ f ∈ (Set.univ : Set Unit), ∃ f',
      ((fun _ k => ⟨.pending (), [k]⟩ : Unit → TaskId → PollStep Nat Unit) f ⟨0⟩).result = .pending f' ∧
        f' ∈ Set.univ ∧
        (⟨0⟩ : TaskId) ∈ ((fun _ k => ⟨.pending (), [k]⟩ : Unit → TaskId → PollStep Nat Unit) f ⟨0⟩).wakes) ∧
    (∀ f j, ((fun _ k => ⟨.pending (), [k]⟩ : Unit → TaskId → PollStep Nat Unit) f j).result.isPanicked =
      false) ∧
    ((∀ (e : Executor Nat Unit) (f : Unit), f ∈ Set.univ → e.tasks.lookup ⟨0⟩ = some f →
      ⟨0⟩ ∈ e.readyQueue → ∀ fuel, Executor.tick (fun _ k => ⟨.pending (), [k]⟩) fuel e = none) ∧
    (∀ (cpu : Cpu Nat Unit Nat) (task : Task Unit), task.future ∈ Set.univ →
      cpu.messageReceiver.buffer = [] → cpu.taskQueue.lookup ⟨0⟩ = some task → ⟨0⟩ ∈ cpu.readyQueue →
      ⟨0⟩ ∉ cpu.cancelledTasks →
      ∀ fuel now completions, Cpu.tick (fun _ k => ⟨.pending (), [k]⟩) fuel now completions cpu = none)) :=
  ⟨fun _ _ => ⟨(), rfl, trivial, List.mem_singleton_self _⟩, fun _ _ => rfl,
    tick_never_returns _ Set.univ ⟨0⟩ (fun _ _ => ⟨(), rfl, trivial, List.mem_singleton_self _⟩)
      fun _ _ => rfl⟩

/-- On CPU 0, whose local ids start at `0`, the second local spawn and the first
    task submitted from the global counter, which starts at `1`, get the same
    id. Handling the `SubmitTask` inserts that id a second time and replaces the
    spawned task, which has not run: its handle yields `Err(TaskError::Cancelled)`. -/
theorem submitted_task_replaces_spawned (f₀ f₁ g : σ) (now : Instant) :
    let s := (CpuTraced.start 0 Chan.new now : CpuTraced β σ R).run poll
      [.spawn f₀, .spawn f₁, .send (.submitTask (generateGlobalTaskId globalTaskIdStart).1 g), .receive]
    ¬ s.inserted.Nodup ∧ s.cpu.taskQueue.lookup ⟨1⟩ = some ⟨⟨1⟩, g, false⟩ ∧
      (JoinHandle.poll (s.cpu.channels ⟨1⟩)).1 = some (.error .cancelled) := by
  intro s
  -- Before the message is handled, the spawned task is in the map under id 1.
  set s₃ := (CpuTraced.start 0 Chan.new now : CpuTraced β σ R).run poll
    [.spawn f₀, .spawn f₁, .send (.submitTask ⟨1⟩ g)]
  have hl : s₃.cpu.taskQueue.lookup ⟨1⟩ = some ⟨⟨1⟩, f₁, true⟩ := rfl
  have hs : s.cpu = ({ s₃.cpu with messageReceiver := ⟨[], true⟩ } : Cpu β σ R).handleMessage
      (.submitTask ⟨1⟩ g) := rfl
  have hl' : ({ s₃.cpu with messageReceiver := ⟨[], true⟩ } : Cpu β σ R).taskQueue.lookup ⟨1⟩ =
      some ⟨⟨1⟩, f₁, true⟩ := hl
  obtain ⟨hlook, hch⟩ := Cpu.handleMessage_submitTask_of_lookup (g := g) hl'
  refine ⟨fun hn => ?_, hs ▸ hlook, ?_⟩
  · have hi : s.inserted = [⟨0⟩, ⟨1⟩, ⟨1⟩] := rfl
    rw [hi] at hn
    exact absurd hn (by decide)
  · rw [hs, hch]
    rfl

end Miniss
