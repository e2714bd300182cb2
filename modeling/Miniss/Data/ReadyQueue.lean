import Mathlib

/-!
# Ready queues

A runtime that polls its tasks from a ready queue of keys. A task is admitted
into the live tasks with its key pushed on the queue; waking a task pushes its
key; the runtime pops the front key and polls the task if it is live, which
stays live only if the poll returns pending, and pushes the keys woken during
the poll; the key of a task that is not live is popped and skipped. A live task
may also be dropped without a poll.

A `Ledger` records, beside the live tasks and the queue, every poll with its
outcome, the keys woken since the start of their latest poll, and the keys
dropped. Its invariant `Ledger.Inv` holds of every ledger reached by these
transitions, each with the guard the runtime checks (a fresh key on admission,
the front key live on a poll, not live on a skip):

* no task is polled after a poll that finished it;
* a task whose latest poll returned pending is live, unless it was dropped;
* a live task woken since the start of its latest poll has its key in the
  queue: no wake-up is lost.
-/

namespace Miniss

/-- What a poll left of a task: still pending, or finished. -/
inductive Outcome where
  | pending
  | finished
  deriving DecidableEq, Repr

/-- The state of a ready-queue runtime as far as scheduling goes. -/
structure Ledger (κ : Type*) where
  live : Set κ
  queue : List κ
  polls : List (κ × Outcome)
  woken : Set κ
  dropped : Set κ

namespace Ledger

variable {κ : Type*} (L : Ledger κ)

/-- The ledger of a runtime that has not started. -/
def empty : Ledger κ := ⟨∅, [], [], ∅, ∅⟩

/-- Adding the task `k`, with its key pushed on the queue. -/
def add (k : κ) : Ledger κ := { L with live := insert k L.live, queue := L.queue ++ [k] }

/-- Waking the tasks `ws`, in order. -/
def wakes (ws : List κ) : Ledger κ :=
  { L with queue := L.queue ++ ws, woken := L.woken ∪ {j | j ∈ ws} }

/-- Popping the front key, of a task that is not live. -/
def skip : Ledger κ := { L with queue := L.queue.tail }

/-- Popping the front key `k` and polling its task, with outcome `o` and the
    wakes `ws` made during the poll. -/
def poll (k : κ) (o : Outcome) (ws : List κ) : Ledger κ where
  live := if o = .pending then L.live else L.live \ {k}
  queue := L.queue.tail ++ ws
  polls := L.polls ++ [(k, o)]
  woken := (L.woken \ {k}) ∪ {j | j ∈ ws}
  dropped := L.dropped

/-- Dropping the task `k` without a poll. -/
def drop (k : κ) : Ledger κ := { L with live := L.live \ {k}, dropped := insert k L.dropped }

/-- The scheduling invariant. -/
structure Inv : Prop where
  finished_not_live : ∀ k ∈ L.live, (k, Outcome.finished) ∉ L.polls
  no_poll_after_finished : ∀ l₁ k l₂, L.polls = l₁ ++ (k, .finished) :: l₂ → k ∉ l₂.map Prod.fst
  pending_live : ∀ l₁ k l₂, L.polls = l₁ ++ (k, .pending) :: l₂ → k ∉ l₂.map Prod.fst →
    k ∈ L.live ∨ k ∈ L.dropped
  woken_queued : ∀ k ∈ L.live, k ∈ L.woken → k ∈ L.queue

/-- A split of a log grown by one entry: at the new entry, or inside the old log. -/
theorem append_singleton_eq_append_cons {α : Type*} {l₁ l₂ l : List α} {x y : α}
    (h : l ++ [x] = l₁ ++ y :: l₂) :
    (l₂ = [] ∧ y = x ∧ l₁ = l) ∨ ∃ l₂', l₂ = l₂' ++ [x] ∧ l = l₁ ++ y :: l₂' := by
  rcases List.eq_nil_or_concat' l₂ with rfl | ⟨l₂', b, rfl⟩
  · obtain ⟨h1, h2⟩ := List.append_inj' h rfl
    simp only [List.cons.injEq, and_true] at h2
    exact .inl ⟨rfl, h2.symm, h1.symm⟩
  · have h' : l ++ [x] = (l₁ ++ y :: l₂') ++ [b] := by simpa using h
    obtain ⟨h1, h2⟩ := List.append_inj' h' rfl
    simp only [List.cons.injEq, and_true] at h2
    subst h2
    exact .inr ⟨l₂', rfl, h1⟩

theorem inv_empty : (empty : Ledger κ).Inv where
  finished_not_live _ hk := hk.elim
  no_poll_after_finished l₁ _ _ h := by simp [empty] at h
  pending_live l₁ _ _ h := by simp [empty] at h
  woken_queued _ hk := hk.elim

variable {L} {k : κ} {rest : List κ}

theorem Inv.add (h : L.Inv) (hk : (k, Outcome.finished) ∉ L.polls) : (L.add k).Inv where
  finished_not_live j hj := by
    rcases hj with rfl | hj
    · exact hk
    · exact h.finished_not_live j hj
  no_poll_after_finished := h.no_poll_after_finished
  pending_live l₁ j l₂ hp hj := (h.pending_live l₁ j l₂ hp hj).imp_left (Set.mem_insert_of_mem k)
  woken_queued j hj hw := by
    rcases hj with rfl | hj
    · exact List.mem_append_right _ (List.mem_singleton_self _)
    · exact List.mem_append_left _ (h.woken_queued j hj hw)

theorem Inv.wakes (h : L.Inv) (ws : List κ) : (L.wakes ws).Inv where
  finished_not_live := h.finished_not_live
  no_poll_after_finished := h.no_poll_after_finished
  pending_live := h.pending_live
  woken_queued j hj hw := by
    rcases hw with hw | hw
    · exact List.mem_append_left _ (h.woken_queued j hj hw)
    · exact List.mem_append_right _ hw

theorem Inv.skip (h : L.Inv) (hq : L.queue = k :: rest) (hk : k ∉ L.live) : L.skip.Inv where
  finished_not_live := h.finished_not_live
  no_poll_after_finished := h.no_poll_after_finished
  pending_live := h.pending_live
  woken_queued j hj hw := by
    -- The popped key is not live, so a live key that was queued is queued further back.
    have hmem := h.woken_queued j hj hw
    rw [hq] at hmem
    rcases List.mem_cons.1 hmem with rfl | hmem
    · exact absurd hj hk
    · simpa [Ledger.skip, hq] using hmem

theorem Inv.drop (h : L.Inv) (k : κ) : (L.drop k).Inv where
  finished_not_live j hj := h.finished_not_live j hj.1
  no_poll_after_finished := h.no_poll_after_finished
  pending_live l₁ j l₂ hp hj := by
    by_cases hjk : j = k
    · exact .inr (hjk ▸ Set.mem_insert k L.dropped)
    · rcases h.pending_live l₁ j l₂ hp hj with hl | hd
      · exact .inl ⟨hl, hjk⟩
      · exact .inr (Set.mem_insert_of_mem k hd)
  woken_queued j hj hw := h.woken_queued j hj.1 hw

section poll

variable (o : Outcome) (ws : List κ)

theorem Inv.poll_finished_not_live (h : L.Inv) : ∀ j ∈ (L.poll k o ws).live,
    (j, Outcome.finished) ∉ (L.poll k o ws).polls := by
  intro j hj hmem
  -- A key still live after the poll is not the one finished by it.
  have hj' : j ∈ L.live ∧ (j = k → o = .pending) := by
    by_cases ho : o = .pending
    · simp only [Ledger.poll, ho, if_true] at hj
      exact ⟨hj, fun _ => ho⟩
    · simp only [Ledger.poll, ho, if_false] at hj
      exact ⟨hj.1, fun hjk => absurd hjk hj.2⟩
  rcases List.mem_append.1 hmem with hmem | hmem
  · exact h.finished_not_live j hj'.1 hmem
  · simp only [List.mem_singleton, Prod.mk.injEq] at hmem
    cases (hj'.2 hmem.1).symm.trans hmem.2.symm

theorem Inv.poll_no_poll_after_finished (h : L.Inv) (hk : k ∈ L.live) : ∀ l₁ j l₂,
    (L.poll k o ws).polls = l₁ ++ (j, .finished) :: l₂ → j ∉ l₂.map Prod.fst := by
  intro l₁ j l₂ hp
  rcases append_singleton_eq_append_cons hp with ⟨rfl, -, -⟩ | ⟨l₂', rfl, hp'⟩
  · simp
  · -- The earlier finished poll was of another task: the polled one is live.
    have hjk : j ≠ k := by
      rintro rfl
      exact h.finished_not_live j hk (hp' ▸ by simp)
    simpa [hjk] using h.no_poll_after_finished l₁ j l₂' hp'

theorem Inv.poll_pending_live (h : L.Inv) (hk : k ∈ L.live) : ∀ l₁ j l₂,
    (L.poll k o ws).polls = l₁ ++ (j, Outcome.pending) :: l₂ → j ∉ l₂.map Prod.fst →
      j ∈ (L.poll k o ws).live ∨ j ∈ (L.poll k o ws).dropped := by
  intro l₁ j l₂ hp hj
  rcases append_singleton_eq_append_cons hp with ⟨rfl, hjo, -⟩ | ⟨l₂', rfl, hp'⟩
  · -- The latest poll is this one, which returned pending.
    simp only [Prod.mk.injEq] at hjo
    obtain ⟨rfl, rfl⟩ := hjo
    exact .inl (by simpa [Ledger.poll] using hk)
  · have hjk : j ≠ k := fun hjk => hj (by simp [hjk])
    have hj' : j ∉ l₂'.map Prod.fst := fun hm => hj (by simp only [List.map_append]; simp [hm])
    rcases h.pending_live l₁ j l₂' hp' hj' with hl | hd
    · left
      by_cases ho : o = .pending
      · simpa [Ledger.poll, ho] using hl
      · simpa [Ledger.poll, ho] using And.intro hl hjk
    · exact .inr hd

theorem Inv.poll_woken_queued (h : L.Inv) (hq : L.queue = k :: rest) : ∀ j ∈ (L.poll k o ws).live, j ∈ (L.poll k o ws).woken →
    j ∈ (L.poll k o ws).queue := by
  intro j hj hw
  simp only [Ledger.poll, hq, List.tail_cons, List.mem_append] at hj hw ⊢
  rcases hw with ⟨hw, hjk⟩ | hw
  · -- Woken before the poll, and not the polled task: queued behind it.
    have hl : j ∈ L.live := by split_ifs at hj with ho <;> simp_all
    have hmem := h.woken_queued j hl hw
    rw [hq] at hmem
    exact .inl ((List.mem_cons.1 hmem).resolve_left hjk)
  · exact .inr hw

theorem Inv.poll (h : L.Inv) (hq : L.queue = k :: rest) (hk : k ∈ L.live) :
    (L.poll k o ws).Inv :=
  ⟨h.poll_finished_not_live o ws, h.poll_no_poll_after_finished o ws hk,
    h.poll_pending_live o ws hk, h.poll_woken_queued o ws hq⟩

end poll

end Ledger

end Miniss
