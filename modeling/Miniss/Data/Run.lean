import Mathlib

/-!
# Runs of a partial step function

A system that takes events one after another, where a step may be undefined,
runs as `events.foldlM step s` in `Option`: `none` as soon as a step is. The
two rules for its invariants, proved once by induction on the events:

* `run_invariant`: an invariant that every defined step keeps holds at the end
  of every defined run, and `run_invariant_of_mem` where only the events of
  the run keep it;
* `run_total`: an invariant from which every step is defined, and kept, gives
  a defined run that ends in it, whatever the events;
* `foldl_invariant`: the rule for a step that is always defined, run as
  `events.foldl step s`, and `foldl_invariant_of_mem` where only the events
  of the run keep the invariant.
-/

namespace Miniss

variable {σ ε : Type*} {step : σ → ε → Option σ}

/-- The invariant rule for the runs that are defined. -/
theorem run_invariant (P : σ → Prop) (hstep : ∀ s e s', P s → step s e = some s' → P s')
    {events : List ε} {s s' : σ} (hs : P s) (h : events.foldlM step s = some s') : P s' := by
  induction events generalizing s with
  | nil =>
    cases h
    exact hs
  | cons e events ih =>
    -- a run is its first step, then the run of the rest
    have h' : (step s e).bind (fun s₁ => events.foldlM step s₁) = some s' := h
    obtain ⟨s₁, hs₁, hrun⟩ := Option.bind_eq_some_iff.mp h'
    exact ih (hstep s e s₁ hs hs₁) hrun

/-- The same rule when only the events of the run are known to keep the
    invariant. -/
theorem run_invariant_of_mem (P : σ → Prop) {events : List ε}
    (hstep : ∀ s, ∀ e ∈ events, ∀ s', P s → step s e = some s' → P s') {s s' : σ} (hs : P s)
    (h : events.foldlM step s = some s') : P s' := by
  induction events generalizing s with
  | nil =>
    cases h
    exact hs
  | cons e events ih =>
    have h' : (step s e).bind (fun s₁ => events.foldlM step s₁) = some s' := h
    obtain ⟨s₁, hs₁, hrun⟩ := Option.bind_eq_some_iff.mp h'
    exact ih (fun s'' e' he' => hstep s'' e' (List.mem_cons_of_mem e he'))
      (hstep s e List.mem_cons_self s₁ hs hs₁) hrun

/-- The totality rule: from an invariant under which every step is defined
    and keeps it, every run is defined and ends in it. -/
theorem run_total (P : σ → Prop) (hstep : ∀ s e, P s → ∃ s', step s e = some s' ∧ P s')
    {s : σ} (hs : P s) (events : List ε) : ∃ s', events.foldlM step s = some s' ∧ P s' := by
  induction events generalizing s with
  | nil => exact ⟨s, rfl, hs⟩
  | cons e events ih =>
    obtain ⟨s₁, hs₁, hP₁⟩ := hstep s e hs
    obtain ⟨s', hs', hP'⟩ := ih hP₁
    refine ⟨s', ?_, hP'⟩
    show (step s e).bind (fun s₁ => events.foldlM step s₁) = some s'
    rw [hs₁, Option.bind_some, hs']

/-- The invariant rule for the runs of a step that is always defined. -/
theorem foldl_invariant {step : σ → ε → σ} (P : σ → Prop) (hstep : ∀ s e, P s → P (step s e))
    {s : σ} (hs : P s) (events : List ε) : P (events.foldl step s) := by
  induction events generalizing s with
  | nil => exact hs
  | cons e events ih => exact ih (hstep s e hs)

/-- The same rule when only the events of the run are known to keep the
    invariant. -/
theorem foldl_invariant_of_mem {step : σ → ε → σ} (P : σ → Prop) {events : List ε}
    (hstep : ∀ s, ∀ e ∈ events, P s → P (step s e)) {s : σ} (hs : P s) :
    P (events.foldl step s) := by
  induction events generalizing s with
  | nil => exact hs
  | cons e events ih =>
    exact ih (fun s' e' he' => hstep s' e' (List.mem_cons_of_mem e he')) (hstep s e List.mem_cons_self hs)

end Miniss
