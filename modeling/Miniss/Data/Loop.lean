import Mathlib

/-!
# Loops with fuel

A `while` loop whose body either goes on with a new state or stops with a
result, run for at most `fuel` rounds: `none` when the rounds run out
(`Miniss.loop`). The rules for reasoning about it:

* `loop_spec`: what an invariant of the body gives of the result;
* `loop_eq_none`: a loop whose body never stops from the states of an
  invariant never returns, whatever the fuel;
* `loop_isSome`: a loop whose body lowers a measure returns, given more fuel
  than the measure; `loop_exists_of_wf`: one whose body goes down a
  well-founded relation returns, given enough fuel;
* `loop_of_le`: more fuel does not change a result.
-/

namespace Miniss

variable {σ ρ : Type*}

/-- A `while` loop with `body`, for at most `fuel` rounds. -/
def loop (body : σ → σ ⊕ ρ) : Nat → σ → Option ρ
  | 0, _ => none
  | fuel + 1, s =>
    match body s with
    | .inl s' => loop body fuel s'
    | .inr r => some r

variable {body : σ → σ ⊕ ρ} {fuel : Nat} {s s' : σ} {r : ρ}

@[simp] theorem loop_zero : loop body 0 s = none := rfl

theorem loop_succ_of_inl (h : body s = .inl s') : loop body (fuel + 1) s = loop body fuel s' := by
  rw [loop, h]

theorem loop_succ_of_inr (h : body s = .inr r) : loop body (fuel + 1) s = some r := by
  rw [loop, h]

/-- The invariant rule: a result of the loop from a state of the invariant `P`
    satisfies what the stopping rounds of the body give from `P`. -/
theorem loop_spec (P : σ → Prop) (Q : ρ → Prop)
    (hstep : ∀ s s', P s → body s = .inl s' → P s')
    (hstop : ∀ s r, P s → body s = .inr r → Q r)
    (hs : P s) (h : loop body fuel s = some r) : Q r := by
  induction fuel generalizing s with
  | zero => simp at h
  | succ fuel ih =>
    cases hb : body s with
    | inl s' => exact ih (hstep s s' hs hb) (by rwa [loop_succ_of_inl hb] at h)
    | inr r' =>
      rw [loop_succ_of_inr hb, Option.some_inj] at h
      exact h ▸ hstop s r' hs hb

/-- The divergence rule: from the states of an invariant `P` the body never
    stops, so the loop never returns. -/
theorem loop_eq_none (P : σ → Prop) (hstep : ∀ s, P s → ∃ s', body s = .inl s' ∧ P s')
    (hs : P s) : loop body fuel s = none := by
  induction fuel generalizing s with
  | zero => rfl
  | succ fuel ih =>
    obtain ⟨s', hb, hs'⟩ := hstep s hs
    rw [loop_succ_of_inl hb]
    exact ih hs'

/-- The variant rule: a body that lowers the measure `μ` along the states of an
    invariant `P` stops within `μ s + 1` rounds. -/
theorem loop_isSome (P : σ → Prop) (μ : σ → Nat)
    (hstep : ∀ s s', P s → body s = .inl s' → P s' ∧ μ s' < μ s)
    (hs : P s) (hfuel : μ s < fuel) : (loop body fuel s).isSome := by
  induction fuel generalizing s with
  | zero => omega
  | succ fuel ih =>
    cases hb : body s with
    | inl s' =>
      obtain ⟨hs', hμ⟩ := hstep s s' hs hb
      rw [loop_succ_of_inl hb]
      exact ih hs' (by omega)
    | inr r => rw [loop_succ_of_inr hb]; rfl

/-- The variant rule for a well-founded relation: a body that goes down `r`
    along the states of an invariant `P` stops, given enough fuel. -/
theorem loop_exists_of_wf (P : σ → Prop) (r : σ → σ → Prop) (hwf : WellFounded r)
    (hstep : ∀ s s', P s → body s = .inl s' → P s' ∧ r s' s) (hs : P s) :
    ∃ fuel res, loop body fuel s = some res := by
  refine hwf.induction (C := fun s => P s → ∃ fuel res, loop body fuel s = some res) s ?_ hs
  intro s ih hs
  cases hb : body s with
  | inl s' =>
    obtain ⟨hs', hr⟩ := hstep s s' hs hb
    obtain ⟨fuel, res, h⟩ := ih s' hr hs'
    exact ⟨fuel + 1, res, by rw [loop_succ_of_inl hb, h]⟩
  | inr res => exact ⟨1, res, loop_succ_of_inr hb⟩

/-- A result does not change with more fuel. -/
theorem loop_of_le {fuel' : Nat} (hle : fuel ≤ fuel') (h : loop body fuel s = some r) :
    loop body fuel' s = some r := by
  induction fuel generalizing s fuel' with
  | zero => simp at h
  | succ fuel ih =>
    obtain ⟨fuel', rfl⟩ : ∃ k, fuel' = k + 1 := ⟨fuel' - 1, by omega⟩
    cases hb : body s with
    | inl s' =>
      rw [loop_succ_of_inl hb] at h ⊢
      exact ih (by omega) h
    | inr r' => rwa [loop_succ_of_inr hb] at h ⊢

end Miniss
