import Miniss.Runtime.Executor
import Miniss.Timer.Futures

/-!
# A sleeping task on the single-CPU executor

`src/task.rs`, `TaskBuilder::spawn`: with no global runtime, a task goes to a
fresh `Executor` of its own, which a new thread runs (`spawn_single_cpu`).
`Executor::run` ticks while its map holds a task; a tick polls the ids on the
ready queue, and only a waker puts an id there.

The futures of `src/timer` hand the waker of their task to a `TimerWheel` of
their own, which nothing ever expires (`Miniss.Timer.Futures`): their poll puts
no id on the ready queue (`timerTask`).

* `Executor.run_of_stalled`: an executor whose ready queue is empty while its
  map holds a task never returns from `run`, as every tick finds nothing to
  poll;
* `spawn_stalls`: a task spawned that way whose first poll is pending and
  wakes nothing is polled once and never again;
* `sleep_task_never_completes`: so `spawn(sleep(d))`, whose first poll reads
  the clock before the end time, never completes: `run` never returns, the
  executor stays as its first tick left it, and the task's `JoinHandle` stays
  pending.
-/

namespace Miniss

namespace Executor

variable {β σ : Type*} {poll : σ → TaskId → PollStep β σ} {e : Executor β σ}

/-- A tick on an empty ready queue makes no progress. -/
theorem tick_of_readyQueue_nil (hq : e.readyQueue = []) (fuel : Nat) :
    tick poll (fuel + 1) e = some (e, false) := by
  rw [tick, loop_succ_of_inr (tickRound_nil hq)]

/-- `Executor::run` on an executor whose ready queue is empty and whose map
    still holds a task never returns. -/
theorem run_of_stalled (hq : e.readyQueue = []) (ht : e.tasks.entries ≠ []) (fuel : Nat) :
    run poll fuel e = none := by
  induction fuel with
  | zero => rfl
  | succ fuel ih =>
    rw [run, if_neg ht]
    cases fuel with
    | zero => rfl
    | succ fuel => rw [tick_of_readyQueue_nil hq, Option.bind_some, ih]

end Executor

namespace TaskBuilder

variable {β σ : Type*}

/-- `TaskBuilder::spawn_single_cpu`, and so `TaskBuilder::spawn` and
    `task::spawn`: a new executor with the task spawned on it, and the task's
    handle; the thread it starts runs `Executor::run` on that executor. -/
def spawnSingleCpu (future : σ) : Executor β σ × JoinHandle := Executor.new.spawn future

variable {poll : σ → TaskId → PollStep β σ} {future future' : σ}

theorem insert_erase_singleton (k : TaskId) (v v' : σ) :
    ((AList.singleton k v : AList fun _ : TaskId => σ).erase k).insert k v' =
      AList.singleton k v' := by
  have h : (AList.singleton k v : AList fun _ : TaskId => σ).erase k = ∅ :=
    AList.ext (by simp [AList.erase, AList.singleton])
  rw [h, AList.insert_empty]

/-- The first tick after `spawn_single_cpu` polls the task once: if it stays
    pending and wakes nothing, the tick leaves it in the map, an empty queue,
    and its handle's channel as it was. -/
theorem tick_spawnSingleCpu (hpoll : poll future ⟨1⟩ = ⟨.pending future', []⟩) (fuel : Nat) :
    Executor.tick poll (fuel + 2) (spawnSingleCpu future : Executor β σ × JoinHandle).1 =
      some (⟨AList.singleton ⟨1⟩ future', [], 2,
        Function.update (fun _ => Chan.new) ⟨1⟩ Chan.new⟩, true) := by
  have hq : (spawnSingleCpu future : Executor β σ × JoinHandle).1.readyQueue = [⟨1⟩] := rfl
  have hl : ({ (spawnSingleCpu future : Executor β σ × JoinHandle).1 with readyQueue := [] } :
      Executor β σ).tasks.lookup ⟨1⟩ = some future :=
    AList.lookup_insert _
  rw [Executor.tick, loop_succ_of_inl (Executor.tickRound_cons hq),
    Executor.runTask_of_lookup_some hl, hpoll]
  -- the second round finds the queue empty
  simp only [List.append_nil, Bool.false_or, settle]
  rw [loop_succ_of_inr (Executor.tickRound_nil rfl)]
  simp [spawnSingleCpu, Executor.spawn, Executor.new, insert_erase_singleton]

/-- A task whose first poll is pending and wakes nothing is never polled again:
    `Executor::run` never returns, every tick after the first leaves the
    executor as the first left it, and the handle's channel holds nothing. -/
theorem spawn_stalls (hpoll : poll future ⟨1⟩ = ⟨.pending future', []⟩) :
    ∃ e', (∀ fuel, Executor.tick poll (fuel + 2) (spawnSingleCpu future).1 = some (e', true)) ∧
      (∀ fuel, Executor.tick poll (fuel + 1) e' = some (e', false)) ∧
      e'.channels ⟨1⟩ = Chan.new ∧
      ∀ fuel, Executor.run poll fuel (spawnSingleCpu future : Executor β σ × JoinHandle).1 = none := by
  refine ⟨_, tick_spawnSingleCpu hpoll, Executor.tick_of_readyQueue_nil rfl,
    by simp, fun fuel => ?_⟩
  have ht : (spawnSingleCpu future : Executor β σ × JoinHandle).1.tasks.entries ≠ [] := by
    simp [spawnSingleCpu, Executor.spawn, Executor.new]
  have ht' : (AList.singleton (⟨1⟩ : TaskId) future' : AList fun _ : TaskId => σ).entries ≠ [] := by
    simp [AList.singleton_entries]
  -- the first tick needs two rounds; with less fuel it does not return either
  match fuel with
  | 0 => rfl
  | 1 => rfl
  | 2 => rfl
  | fuel + 3 =>
    rw [Executor.run, if_neg ht, tick_spawnSingleCpu hpoll, Option.bind_some]
    exact Executor.run_of_stalled rfl ht' _

end TaskBuilder

/-! ## The futures of `src/timer` as tasks -/

/-- A task on the executor's thread whose future is one of `src/timer`, polled
    by `pollF` with the waker of the task's id: the future hands the waker to
    a wheel of its own, so the poll wakes no task. -/
def timerTask {F β : Type*} (pollF : F → TaskId → Thread → Poll β × F × Thread)
    (st : F × Thread) (k : TaskId) : PollStep β (F × Thread) :=
  match pollF st.1 k st.2 with
  | (.ready v, _, _) => ⟨.ready v, []⟩
  | (.pending, f, th) => ⟨.pending (f, th), []⟩

/-- The future of the `async fn` `timer::sleep(duration)`: not yet polled, or
    awaiting the `SleepFuture` it made at its first poll. -/
inductive Sleep (W : Type*) where
  | start
  | awaiting (sleep : SleepFuture W)

variable (clock : Nat → Instant)

/-- The poll of `timer::sleep(duration)`: the first makes the `SleepFuture`,
    and every poll polls it. -/
def Sleep.poll {W : Type*} (duration : Nat) : Sleep W → W → Thread → Poll Unit × Sleep W × Thread
  | .start, waker, th =>
    let (f, th) := SleepFuture.new clock duration th
    let (p, f, th) := f.poll clock waker th
    (p, .awaiting f, th)
  | .awaiting f, waker, th =>
    let (p, f, th) := f.poll clock waker th
    (p, .awaiting f, th)

variable {clock}

/-- The first poll of `timer::sleep(duration)` reads the clock three times, and
    is pending if the last reading is before the end time the second set. -/
theorem Sleep.poll_start_of_lt {W : Type*} {duration : Nat} {th : Thread} (waker : W)
    (h : clock (th.reads + 2) < clock (th.reads + 1) + duration) :
    ((Sleep.start : Sleep W).poll clock duration waker th).1 = .pending := by
  let new : SleepFuture W × Thread := SleepFuture.new clock duration th
  have hpoll : (new.1.poll clock waker new.2).1 =
      if clock new.2.reads ≥ new.1.endTime then .ready () else .pending :=
    SleepFuture.poll_fst
  rw [SleepFuture.reads_new, SleepFuture.endTime_new, if_neg (Nat.not_le.mpr h)] at hpoll
  exact hpoll

/-- `spawn(timer::sleep(d))` through `TaskBuilder::spawn`, on a thread whose
    clock, at the first poll, has not yet reached the end time: the task is
    polled once and never again. `Executor::run` never returns, every tick
    after the first leaves the executor as it is, and the task's `JoinHandle`
    stays pending. -/
theorem sleep_task_never_completes (duration : Nat) (th : Thread)
    (h : clock (th.reads + 2) < clock (th.reads + 1) + duration) :
    ∃ e', (∀ fuel, Executor.tick (timerTask (Sleep.poll clock duration)) (fuel + 2)
        (TaskBuilder.spawnSingleCpu ((Sleep.start : Sleep TaskId), th)).1 = some (e', true)) ∧
      (∀ fuel, Executor.tick (timerTask (Sleep.poll clock duration)) (fuel + 1) e' =
        some (e', false)) ∧
      (JoinHandle.poll (e'.channels ⟨1⟩)).1 = none ∧
      ∀ fuel, Executor.run (timerTask (Sleep.poll clock duration)) fuel
        (TaskBuilder.spawnSingleCpu ((Sleep.start : Sleep TaskId), th)).1 = none := by
  -- the first poll is pending, and a timer future wakes nothing
  have hpoll : timerTask (Sleep.poll clock duration) (Sleep.start, th) ⟨1⟩ =
      ⟨.pending (((Sleep.start : Sleep TaskId).poll clock duration ⟨1⟩ th).2.1,
        ((Sleep.start : Sleep TaskId).poll clock duration ⟨1⟩ th).2.2), []⟩ := by
    have hp := Sleep.poll_start_of_lt (W := TaskId) ⟨1⟩ h
    unfold timerTask
    split <;> simp_all
  obtain ⟨e', htick, hfix, hchan, hrun⟩ := TaskBuilder.spawn_stalls hpoll
  refine ⟨e', htick, hfix, ?_, hrun⟩
  rw [hchan]
  rfl

/-- A sleep of 10 ms on a clock that reads 0, 1, 2, … ms. -/
theorem sleep_task_never_completes_ten :
    (fun n => n : Nat → Instant) (0 + 2) < (fun n => n : Nat → Instant) (0 + 1) + 10 ∧
      ∃ e', (∀ fuel, Executor.tick (timerTask (Sleep.poll (fun n => n) 10)) (fuel + 2)
          (TaskBuilder.spawnSingleCpu ((Sleep.start : Sleep TaskId), (⟨0, 1⟩ : Thread))).1 =
            some (e', true)) ∧
        (∀ fuel, Executor.tick (timerTask (Sleep.poll (fun n => n) 10)) (fuel + 1) e' =
          some (e', false)) ∧
        (JoinHandle.poll (e'.channels ⟨1⟩)).1 = none ∧
        ∀ fuel, Executor.run (timerTask (Sleep.poll (fun n => n) 10)) fuel
          (TaskBuilder.spawnSingleCpu ((Sleep.start : Sleep TaskId), (⟨0, 1⟩ : Thread))).1 = none :=
  ⟨by decide, sleep_task_never_completes 10 ⟨0, 1⟩ (by decide)⟩

end Miniss
