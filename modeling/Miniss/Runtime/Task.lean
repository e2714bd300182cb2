import Miniss.Data.Channel
import Miniss.Data.ReadyQueue

/-!
# Tasks and their handles

`src/waker.rs`, `src/task.rs`. A task is a future identified by a `TaskId`. The
future of a task is left abstract: a state `σ` and what one poll of it does
(`PollStep`), given the id its context's waker pushes onto the ready queue — its
outcome (`Ready` with the value of the user's future, `Pending` with the next
state, or a panic unwinding out of `poll`) and the task ids it wakes during the
poll, through the waker of its context or clones of other tasks' wakers, in
order.

`spawn` wraps the user's future so that it sends `Ok(value)` on a channel of
capacity one as it completes; the task's `JoinHandle` holds the receiver. The
sender lives in the wrapped future, so it goes away as the future completes or
is dropped (after a panic, or when the task is removed). What a poll's result
does to that channel is `settle`.

`is_finished`, `cancel` and the `Future` impl of `JoinHandle` all call
`try_recv` on the receiver, and `is_finished` throws away what it receives:

* `JoinHandle.isFinished_of_sent`: on a channel that holds the value of a
  finished task, `is_finished` takes it out, and from then on the handle
  yields `Err(TaskError::Cancelled)`;
* `JoinHandle.poll_ne_panic`: `poll` yields `Err(TaskError::Panic)` only from a
  channel that holds it, which no channel of `spawn` ever does.

The payload of `TaskError::Panic` and the waker a pending `JoinHandle` stores
(which no sender ever wakes) are left out.
-/

namespace Miniss

/-- `TaskId`: the id of a task. -/
structure TaskId where
  val : Nat
  deriving DecidableEq, Repr

/-- `TaskId::cpu_id`: the upper 32 bits of the id. -/
def TaskId.cpuId (t : TaskId) : Nat := t.val / 2 ^ 32

/-- `TaskError`. -/
inductive TaskError where
  | panic
  | cancelled
  deriving DecidableEq, Repr

/-- `TaskResult<T>`. -/
abbrev TaskResult (β : Type*) := Except TaskError β

/-- The outcome of one poll of a task's future. -/
inductive PollResult (β σ : Type*) where
  | ready (value : β)
  | pending (next : σ)
  | panicked

/-- One poll of a task's future: its outcome, and the tasks it woke. -/
structure PollStep (β σ : Type*) where
  result : PollResult β σ
  wakes : List TaskId

variable {β σ : Type*}

/-- Whether a poll finished the task, or left it pending. -/
def PollResult.outcome : PollResult β σ → Outcome
  | .pending _ => .pending
  | _ => .finished

/-- Whether the poll panicked. -/
def PollResult.isPanicked : PollResult β σ → Bool
  | .panicked => true
  | _ => false

/-- What a poll's result does to the channel of a spawned task's handle: the
    wrapper sends `Ok(value)` and drops its sender as it completes; a panic
    drops the wrapper, and with it the sender. -/
def settle (c : Chan (TaskResult β)) : PollResult β σ → Chan (TaskResult β)
  | .ready v => (c.send (.ok v)).dropSender
  | .pending _ => c
  | .panicked => c.dropSender

variable {r : PollResult β σ}

theorem PollResult.outcome_of_isPanicked (h : r.isPanicked = true) : r.outcome = .finished := by
  cases r <;> simp_all [isPanicked, outcome]

/-- On the channel of a task that has not finished, a poll leaves nothing, or
    the value of the task with the sender gone. -/
theorem settle_new_shape :
    (settle Chan.new r).buffer = [] ∨ ∃ v, settle (Chan.new : Chan (TaskResult β)) r = ⟨[.ok v], false⟩ := by
  cases r with
  | ready v => exact .inr ⟨v, rfl⟩
  | pending _ => exact .inl rfl
  | panicked => exact .inl rfl

theorem settle_of_pending {c : Chan (TaskResult β)} (h : r.outcome = .pending) : settle c r = c := by
  cases r <;> simp_all [PollResult.outcome, settle]

theorem settle_of_isPanicked {c : Chan (TaskResult β)} (h : r.isPanicked = true) :
    settle c r = c.dropSender := by
  cases r <;> simp_all [PollResult.isPanicked, settle]

/-- `Task` on a `Cpu` or a `CpuCore`: a future with the id of its task. `sends`
    marks the wrapper `spawn` builds, which holds the sender of its handle's
    channel; a future handed over in a message (`SubmitTask`,
    `CoreMessage::Task`) holds none. -/
structure Task (σ : Type*) where
  id : TaskId
  future : σ
  sends : Bool

/-- A task dropped before it completes: the wrapper's sender goes away with it. -/
def dropTask (channels : TaskId → Chan (TaskResult β)) (t : Task σ) : TaskId → Chan (TaskResult β) :=
  if t.sends then Function.update channels t.id (channels t.id).dropSender else channels

/-- What a poll's result does to the channels, for a task that may hold a sender. -/
def settleTask (channels : TaskId → Chan (TaskResult β)) (t : Task σ) (r : PollResult β σ) :
    TaskId → Chan (TaskResult β) :=
  if t.sends then Function.update channels t.id (settle (channels t.id) r) else channels

/-- `JoinHandle<T>`: the id of its task; its receiver is the channel of that id. -/
structure JoinHandle where
  taskId : TaskId
  deriving DecidableEq, Repr

namespace JoinHandle

/-- `JoinHandle::is_finished`: whether `try_recv` returned a message or found
    the channel disconnected; the message is dropped. -/
def isFinished (c : Chan (TaskResult β)) : Bool × Chan (TaskResult β) :=
  match c.tryRecv with
  | (.ok _, c') => (true, c')
  | (.error .disconnected, c') => (true, c')
  | (.error .empty, c') => (false, c')

/-- `JoinHandle::cancel`: calls `is_finished`, and returns `Ok(())`. -/
def cancel (c : Chan (TaskResult β)) : Chan (TaskResult β) := (isFinished c).2

/-- `JoinHandle::poll`: the result received, `Pending` (`none`) on an empty
    channel, `Err(TaskError::Cancelled)` on a disconnected one. -/
def poll (c : Chan (TaskResult β)) : Option (TaskResult β) × Chan (TaskResult β) :=
  match c.tryRecv with
  | (.ok r, c') => (some r, c')
  | (.error .empty, c') => (none, c')
  | (.error .disconnected, c') => (some (.error .cancelled), c')

variable {c : Chan (TaskResult β)}

/-- All three calls leave the channel as `try_recv` does. -/
@[simp] theorem isFinished_snd : (isFinished c).2 = c.tryRecv.2 := by
  unfold isFinished
  split <;> simp_all

@[simp] theorem cancel_eq : cancel c = c.tryRecv.2 := isFinished_snd

@[simp] theorem poll_snd : (poll c).2 = c.tryRecv.2 := by
  unfold poll
  split <;> simp_all

/-- On a disconnected channel, the handle yields `Err(TaskError::Cancelled)`. -/
theorem poll_of_disconnected (h : c.Disconnected) : poll c = (some (.error .cancelled), c) := by
  rw [poll, Chan.tryRecv_of_disconnected h]

/-- `is_finished` leaves a disconnected channel as it is. -/
theorem isFinished_of_disconnected (h : c.Disconnected) : isFinished c = (true, c) := by
  rw [isFinished, Chan.tryRecv_of_disconnected h]

/-- Before the task finishes, `is_finished` says so and changes nothing. -/
theorem isFinished_of_empty (h : c.buffer = []) (ha : c.senderAlive = true) :
    isFinished c = (false, c) := by
  rw [isFinished, Chan.tryRecv_of_empty h ha]

/-- On a channel holding the value of a finished task, `is_finished` takes it
    out and leaves the channel disconnected. -/
theorem isFinished_of_sent {v : β} (h : c = ⟨[.ok v], false⟩) :
    isFinished c = (true, ⟨[], false⟩) := by
  subst h
  rfl

/-- `Err(TaskError::Panic)` comes only out of a channel that holds it. -/
theorem poll_ne_panic (h : .error .panic ∉ c.buffer) : (poll c).1 ≠ some (.error .panic) := by
  unfold poll
  rcases hb : c.buffer with _ | ⟨r, rest⟩
  · rw [Chan.tryRecv_of_nil hb]
    cases c.senderAlive <;> simp
  · rw [Chan.tryRecv_of_cons hb]
    rintro ⟨⟩
    exact h (hb ▸ List.mem_cons_self)

end JoinHandle

end Miniss
