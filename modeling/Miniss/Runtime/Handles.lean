import Miniss.Runtime.ExecutorRun
import Miniss.Runtime.Cpu

/-!
# What a handle yields

Along every run of an executor, the channel of a task's handle holds nothing
until the task finishes, and then the value of the task with the sender gone
(`Traced.Inv`). So:

* `Traced.join_ne_panic`: no handle ever yields `Err(TaskError::Panic)`;
* `Traced.join_of_panicked`: the handle of a task whose poll panicked yields
  `Err(TaskError::Cancelled)`;
* `Traced.join_after_isFinished`: once `is_finished` (or `cancel`) has run on
  the handle of a finished task, the value is gone: whatever happens next, the
  handle yields `Err(TaskError::Cancelled)`.

A disconnected channel stays so along any run (`Traced.Inv.disconnected_run`):
its task is gone from the map, and its id below the counter, so neither a poll
nor a spawn reaches it again.

A CPU does not catch the panic of a task at all: it ends its `tick`
(`Cpu.tick_of_panicked`).
-/

namespace Miniss

namespace Traced

variable {β σ : Type*} {poll : σ → TaskId → PollStep β σ} {s : Traced β σ} {k : TaskId}

/-- The task of a disconnected channel is not in the map, and its id is below
    the counter. -/
theorem Inv.of_disconnected (h : s.Inv) (hk : (s.exec.channels k).Disconnected) :
    k ∉ s.exec.tasks ∧ k.val < s.exec.nextTaskId := by
  have hnew : s.exec.channels k ≠ Chan.new := fun hc => by
    have := hk.2
    rw [hc] at this
    cases this
  exact ⟨fun hmem => hnew (h.live_channel k hmem),
    Nat.lt_of_not_le fun hle => hnew (h.fresh_channel k hle)⟩

theorem Inv.disconnected_step (h : s.Inv) (hk : (s.exec.channels k).Disconnected) :
    ∀ ev : Event σ, ((s.step poll ev).exec.channels k).Disconnected := by
  obtain ⟨hmem, hlt⟩ := h.of_disconnected hk
  -- Events that touch another id leave the channel of `k` as it is.
  have hobs : ∀ taskId, ((s.observe taskId fun c => c.tryRecv.2).exec.channels k).Disconnected := by
    intro taskId
    by_cases hkt : k = taskId
    · subst hkt
      simp only [Traced.observe, Function.update_self]
      rw [Chan.tryRecv_of_disconnected hk]
      exact hk
    · simpa [Traced.observe, Function.update_of_ne hkt] using hk
  intro ev
  cases ev with
  | spawn future =>
    have hne : k ≠ ⟨s.exec.nextTaskId⟩ := by
      rintro rfl
      exact lt_irrefl _ hlt
    simpa [Traced.step, Executor.spawn, Function.update_of_ne hne] using hk
  | wake taskId => exact hk
  | pop =>
    cases hq : s.exec.readyQueue with
    | nil => simpa [Traced.step, hq] using hk
    | cons taskId rest =>
      rw [exec_step_pop_of_cons hq]
      by_cases hkt : k = taskId
      · subst hkt
        rw [Executor.runTask_of_lookup_none (e := { s.exec with readyQueue := rest })
          (AList.lookup_eq_none.2 hmem)]
        exact hk
      · rw [Executor.channels_runTask_of_ne hkt]
        exact hk
  | isFinished taskId => rw [step_isFinished]; exact hobs taskId
  | cancel taskId => rw [step_cancel]; exact hobs taskId
  | join taskId => rw [step_join]; exact hobs taskId

/-- A disconnected channel stays so along any run. -/
theorem Inv.disconnected_run (h : s.Inv) (hk : (s.exec.channels k).Disconnected)
    (events : List (Event σ)) : ((s.run poll events).exec.channels k).Disconnected := by
  induction events using List.reverseRecOn with
  | nil => exact hk
  | append_singleton events ev ih =>
    rw [run_append]
    exact (h.run events).disconnected_step ih ev

/-- No handle ever yields `Err(TaskError::Panic)`. -/
theorem join_ne_panic (events : List (Event σ)) (k : TaskId) :
    (JoinHandle.poll (((start : Traced β σ).run poll events).exec.channels k)).1 ≠
      some (.error .panic) := by
  have h : ((start : Traced β σ).run poll events).Inv := inv_start.run events
  refine JoinHandle.poll_ne_panic fun hmem => ?_
  rcases h.channel_shape k with hb | ⟨v, hv⟩
  · rw [hb] at hmem
    cases hmem
  · rw [hv] at hmem
    simp at hmem

/-- The handle of a task whose poll panicked yields `Err(TaskError::Cancelled)`. -/
theorem join_of_panicked (events : List (Event σ)) (hk : k ∈ ((start : Traced β σ).run poll events).panicked) :
    (JoinHandle.poll (((start : Traced β σ).run poll events).exec.channels k)).1 =
      some (.error .cancelled) := by
  have h : ((start : Traced β σ).run poll events).Inv := inv_start.run events
  rw [JoinHandle.poll_of_disconnected (h.panicked_disconnected k hk)]

/-- Once `is_finished` has run on the handle of a task whose value waits in its
    channel, the handle yields `Err(TaskError::Cancelled)` after any events. -/
theorem join_after_isFinished (events events' : List (Event σ)) {v : β}
    (hv : (((start : Traced β σ).run poll events).exec.channels k).buffer = [.ok v]) :
    (JoinHandle.poll ((((start : Traced β σ).run poll events).run poll
      (.isFinished k :: events')).exec.channels k)).1 = some (.error .cancelled) := by
  set s := (start : Traced β σ).run poll events
  have h : s.Inv := inv_start.run events
  -- The value waits only once the sender is gone.
  have hc : s.exec.channels k = ⟨[.ok v], false⟩ := by
    rcases h.channel_shape k with hb | ⟨w, hw⟩
    · rw [hb] at hv
      cases hv
    · rw [hw] at hv ⊢
      simp only [List.cons.injEq, Except.ok.injEq, and_true] at hv
      rw [hv]
  have hdis : ((s.step poll (.isFinished k)).exec.channels k).Disconnected := by
    rw [step_isFinished]
    simp only [Traced.observe, Function.update_self, hc]
    exact ⟨rfl, rfl⟩
  have hrun : (((s.step poll (.isFinished k)).run poll events').exec.channels k).Disconnected :=
    (h.step (.isFinished k)).disconnected_run hdis events'
  rw [show s.run poll (.isFinished k :: events') = (s.step poll (.isFinished k)).run poll events' from rfl]
  exact congrArg Prod.fst (JoinHandle.poll_of_disconnected hrun)

theorem join_after_isFinished_ready :
    (((start : Traced Nat Unit).run (fun _ _ => ⟨.ready 42, []⟩) [.spawn (), .pop]).exec.channels
      ⟨1⟩).buffer = [.ok 42] ∧
    (JoinHandle.poll ((((start : Traced Nat Unit).run (fun _ _ => ⟨.ready 42, []⟩) [.spawn (), .pop]).run
      (fun _ _ => ⟨.ready 42, []⟩) [.isFinished ⟨1⟩]).exec.channels ⟨1⟩)).1 = some (.error .cancelled) :=
  ⟨rfl, join_after_isFinished [.spawn (), .pop] [] rfl⟩

end Traced

variable {β σ R : Type*} {poll : σ → TaskId → PollStep β σ}

/-- A panic in a task is never reported as one. The executor catches it, but
    the handle of no task ever yields `Err(TaskError::Panic)`, and the handle of
    a task whose poll panicked yields `Err(TaskError::Cancelled)`. A CPU does
    not catch it: the panic of the task at the front of its ready queue ends its
    `tick`, which does not return. -/
theorem panic_reported_as_cancelled (events : List (Event σ)) (k : TaskId) :
    let s := (Traced.start : Traced β σ).run poll events
    (JoinHandle.poll (s.exec.channels k)).1 ≠ some (.error .panic) ∧
    (k ∈ s.panicked → (JoinHandle.poll (s.exec.channels k)).1 = some (.error .cancelled)) ∧
    ∀ (cpu : Cpu β σ R) (task : Task σ) (rest : List TaskId), cpu.messageReceiver.buffer = [] →
      cpu.timer.Valid → cpu.readyQueue = k :: rest → k ∉ cpu.cancelledTasks →
      cpu.taskQueue.lookup k = some task → (poll task.future k).result = .panicked →
      ∀ fuel now completions, Cpu.tick poll (fuel + 1) now completions cpu = some (.error k) :=
  ⟨Traced.join_ne_panic events k, Traced.join_of_panicked events,
    fun _ _ _ hm hw hq hc ht hp fuel now completions =>
      Cpu.tick_of_panicked hm hw hq hc ht hp fuel now completions⟩

end Miniss
