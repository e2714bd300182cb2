import Mathlib

/-!
# Cyclic sweeps

A sweep goes round `n` positions arranged in a circle: from a position `c < n`
it visits `c`, then the position after it, `(c + 1) % n`, and so on. The
positions visited in `k` steps are `sweep n c k`, and `dist n c t` is how far
`t` lies ahead of `c`: a loop stepping forward from `c` until it stands on `t`
visits `sweep n c (dist n c t)` and stops there (`dist_succ`).

* `mem_sweep_iff`: the `i`-th position visited is `(c + i) % n`;
* `sweep_eq_range'`: a sweep that does not wrap round is an interval;
* `mem_sweep_full`: a sweep of `n` steps visits every position.
-/

namespace Miniss

/-- The positions visited by a sweep of `k` steps from `c` round `n` positions,
    stepping from each position `p` to `(p + 1) % n`. -/
def sweep (n c : Nat) : Nat → List Nat
  | 0 => []
  | k + 1 => c :: sweep n ((c + 1) % n) k

/-- How far `t` lies ahead of `c` on a circle of `n` positions. -/
def dist (n c t : Nat) : Nat := (t + n - c) % n

variable {n c t k : Nat}

@[simp] theorem sweep_zero : sweep n c 0 = [] := rfl

theorem sweep_succ : sweep n c (k + 1) = c :: sweep n ((c + 1) % n) k := rfl

@[simp] theorem length_sweep : (sweep n c k).length = k := by
  induction k generalizing c with
  | zero => rfl
  | succ k ih => simp [sweep_succ, ih]

/-- A sweep from a position on the circle stays on the circle. -/
theorem lt_of_mem_sweep (hc : c < n) {s : Nat} (hs : s ∈ sweep n c k) : s < n := by
  induction k generalizing c with
  | zero => simp at hs
  | succ k ih =>
    rcases List.mem_cons.1 hs with rfl | hs
    · exact hc
    · exact ih (Nat.mod_lt _ (by omega)) hs

/-- The `i`-th step of a sweep from `c` stands on `(c + i) % n`. -/
theorem mem_sweep_iff (hc : c < n) {s : Nat} : s ∈ sweep n c k ↔ ∃ i < k, (c + i) % n = s := by
  induction k generalizing c with
  | zero => simp
  | succ k ih =>
    rw [sweep_succ, List.mem_cons, ih (Nat.mod_lt _ (by omega))]
    constructor
    · rintro (rfl | ⟨i, hi, rfl⟩)
      · exact ⟨0, by omega, by simp [Nat.mod_eq_of_lt hc]⟩
      · exact ⟨i + 1, by omega, by rw [Nat.mod_add_mod, Nat.add_right_comm, Nat.add_assoc]⟩
    · rintro ⟨i, hi, rfl⟩
      cases i with
      | zero => exact .inl (by simp [Nat.mod_eq_of_lt hc])
      | succ i =>
        exact .inr ⟨i, by omega, by rw [Nat.mod_add_mod, Nat.add_right_comm, Nat.add_assoc]⟩

/-- A sweep that does not wrap round visits an interval. -/
theorem sweep_eq_range' (h : c + k ≤ n) : sweep n c k = List.range' c k := by
  induction k generalizing c with
  | zero => rfl
  | succ k ih =>
    cases k with
    | zero => rfl
    | succ k =>
      rw [sweep_succ, Nat.mod_eq_of_lt (by omega), ih (by omega)]
      rfl

/-- Going `dist n c t` steps forward from `c` lands on `t`. -/
theorem add_dist_mod (hc : c < n) (ht : t < n) : (c + dist n c t) % n = t := by
  rw [dist, Nat.add_mod_mod, show c + (t + n - c) = t + n by omega, Nat.add_mod_right,
    Nat.mod_eq_of_lt ht]

theorem dist_lt (hn : 0 < n) : dist n c t < n := Nat.mod_lt _ hn

@[simp] theorem dist_self (hc : c < n) : dist n c c = 0 := by
  simp [dist, show c + n - c = n by omega]

/-- One step forward from `c ≠ t` brings `t` one step closer. -/
theorem dist_succ (hc : c < n) (ht : t < n) (hne : c ≠ t) :
    dist n ((c + 1) % n) t + 1 = dist n c t := by
  unfold dist
  rcases Nat.lt_or_ge (c + 1) n with h | h
  · rw [Nat.mod_eq_of_lt h]
    rcases Nat.lt_or_gt_of_ne hne with hlt | hlt
    · -- `t` ahead of `c`: both distances are reduced once.
      rw [Nat.mod_eq_sub_mod (by omega), Nat.mod_eq_sub_mod (show n ≤ t + n - c by omega),
        Nat.mod_eq_of_lt (by omega), Nat.mod_eq_of_lt (by omega)]
      omega
    · rw [Nat.mod_eq_of_lt (by omega), Nat.mod_eq_of_lt (by omega)]
      omega
  · -- `c` is the last position: the step wraps round to `0`.
    rw [show c + 1 = n by omega, Nat.mod_self, Nat.sub_zero, Nat.add_mod_right,
      Nat.mod_eq_of_lt ht, Nat.mod_eq_of_lt (by omega)]
    omega

/-- A sweep of `n` steps visits every position of the circle. -/
theorem mem_sweep_full (hc : c < n) {s : Nat} (hs : s < n) : s ∈ sweep n c n :=
  (mem_sweep_iff hc).2 ⟨dist n c s, dist_lt (by omega), add_dist_mod hc hs⟩

end Miniss
