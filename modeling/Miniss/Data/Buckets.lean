import Mathlib

/-!
# Buckets

A list of buckets, each a list of items, emptied one bucket at a time:
emptying the bucket `i` takes out its items, in order, and leaves it empty
(`List.getD` and `List.set`). A sequence of such visits (`drainEach`) takes out
the items of every bucket it visits, the first time it visits it, and nothing
else:

* `drainEach_perm`: no item is lost or duplicated — the items taken out and
  those left in the buckets are a permutation of those there before;
* `getD_drainEach`: a visited bucket is left empty, the others keep their items;
* `mem_drainEach`, `drainEach_of_nodup`: what is taken out, bucket by bucket.

Adding an item at the back of a bucket (`List.modify`) adds it to the items
(`flatten_modify_append_perm`); every element of a list after `modify` was
there or is the image of one that was (`mem_modify`).
-/

namespace Miniss

variable {α : Type*}

/-- Visit the buckets `is` in turn, emptying each: the items taken out, in the
    order of the visits, and the buckets left. -/
def drainEach : List Nat → List (List α) → List α × List (List α)
  | [], b => ([], b)
  | i :: is, b =>
    let r := drainEach is (b.set i [])
    (b.getD i [] ++ r.1, r.2)

variable {b : List (List α)} {i j : Nat} {is : List Nat}

@[simp] theorem drainEach_nil : drainEach [] b = ([], b) := rfl

theorem drainEach_cons :
    drainEach (i :: is) b = (b.getD i [] ++ (drainEach is (b.set i [])).1,
      (drainEach is (b.set i [])).2) := rfl

theorem getD_set_nil : (b.set i []).getD j [] = if i = j then [] else b.getD j [] := by
  rw [List.getD_eq_getElem?_getD, List.getElem?_set, List.getD_eq_getElem?_getD]
  split_ifs <;> simp_all

/-- Emptying one bucket takes its items out, and loses none. -/
theorem getD_append_flatten_set_perm : (b.getD i [] ++ (b.set i []).flatten).Perm b.flatten := by
  induction b generalizing i with
  | nil => simp
  | cons x b ih =>
    cases i with
    | zero => simp
    | succ i =>
      simp only [List.getD_cons_succ, List.set_cons_succ, List.flatten_cons]
      exact (List.perm_append_comm_assoc _ _ _).trans (ih.append_left x)

/-- No item is lost or duplicated by a sequence of visits. -/
theorem drainEach_perm : ((drainEach is b).1 ++ (drainEach is b).2.flatten).Perm b.flatten := by
  induction is generalizing b with
  | nil => simp
  | cons i is ih =>
    rw [drainEach_cons, List.append_assoc]
    exact (ih.append_left _).trans getD_append_flatten_set_perm

@[simp] theorem length_drainEach : (drainEach is b).2.length = b.length := by
  induction is generalizing b with
  | nil => rfl
  | cons i is ih => rw [drainEach_cons, ih, List.length_set]

/-- After the visits, a visited bucket is empty and the others are as they were. -/
theorem getD_drainEach : (drainEach is b).2.getD j [] = if j ∈ is then [] else b.getD j [] := by
  induction is generalizing b with
  | nil => simp
  | cons i is ih =>
    rw [drainEach_cons, ih, getD_set_nil]
    by_cases hj : j ∈ is
    · simp [hj]
    · by_cases hij : i = j
      · simp [hij]
      · simp [hj, hij, Ne.symm hij]

/-- An item is taken out iff it is in one of the visited buckets. -/
theorem mem_drainEach {x : α} : x ∈ (drainEach is b).1 ↔ ∃ i ∈ is, x ∈ b.getD i [] := by
  induction is generalizing b with
  | nil => simp
  | cons i is ih =>
    rw [drainEach_cons, List.mem_append, ih]
    constructor
    · rintro (hx | ⟨j, hj, hx⟩)
      · exact ⟨i, List.mem_cons_self, hx⟩
      · rw [getD_set_nil] at hx
        split_ifs at hx with hij
        · simp at hx
        · exact ⟨j, List.mem_cons_of_mem _ hj, hx⟩
    · rintro ⟨j, hj, hx⟩
      by_cases hij : i = j
      · exact .inl (hij ▸ hx)
      · rcases List.mem_cons.1 hj with rfl | hj
        · exact absurd rfl hij
        · exact .inr ⟨j, hj, by rw [getD_set_nil, if_neg hij]; exact hx⟩

/-- Visiting distinct buckets takes out their items, bucket after bucket. -/
theorem drainEach_of_nodup (h : is.Nodup) : (drainEach is b).1 = is.flatMap (b.getD · []) := by
  induction is generalizing b with
  | nil => rfl
  | cons i is ih =>
    obtain ⟨hi, h⟩ := List.nodup_cons.1 h
    rw [drainEach_cons, List.flatMap_cons]
    dsimp only
    rw [ih h]
    congr 1
    refine List.flatMap_congr fun j hj => ?_
    rw [getD_set_nil, if_neg (fun (hij : i = j) => hi (hij ▸ hj))]

/-! ## Adding an item -/

theorem getD_modify_append {x : α} :
    (b.modify i (· ++ [x])).getD j [] = if i = j ∧ i < b.length then b.getD j [] ++ [x]
      else b.getD j [] := by
  rw [List.getD_eq_getElem?_getD, List.getElem?_modify, List.getD_eq_getElem?_getD]
  rcases Nat.lt_or_ge j b.length with hj | hj
  · rw [List.getElem?_eq_getElem hj]
    by_cases hij : i = j
    · simp [hij, hj]
    · simp [hij]
  · rw [List.getElem?_eq_none hj, if_neg (by omega)]
    rfl

/-- An item added at the back of a bucket is added to the items. -/
theorem flatten_modify_append_perm {x : α} (h : i < b.length) :
    (b.modify i (· ++ [x])).flatten.Perm (b.flatten ++ [x]) := by
  induction b generalizing i with
  | nil => simp at h
  | cons y b ih =>
    cases i with
    | zero =>
      simp only [List.modify_zero_cons, List.flatten_cons, List.append_assoc]
      exact (List.perm_append_singleton _ _).symm.append_left y
    | succ i =>
      rw [List.modify_succ_cons, List.flatten_cons, List.flatten_cons, List.append_assoc]
      exact (ih (by simpa using h)).append_left y

/-- An element of a list after `modify` was in it, or is the image of one that
    was. -/
theorem mem_modify {β : Type*} {l : List β} {f : β → β} {x : β} (h : x ∈ l.modify i f) :
    x ∈ l ∨ ∃ y ∈ l, x = f y := by
  induction l generalizing i with
  | nil => simp at h
  | cons y l ih =>
    cases i with
    | zero =>
      rw [List.modify_zero_cons, List.mem_cons] at h
      rcases h with rfl | h
      · exact .inr ⟨y, List.mem_cons_self, rfl⟩
      · exact .inl (List.mem_cons_of_mem y h)
    | succ i =>
      rw [List.modify_succ_cons, List.mem_cons] at h
      rcases h with rfl | h
      · exact .inl List.mem_cons_self
      · rcases ih h with h | ⟨z, hz, rfl⟩
        · exact .inl (List.mem_cons_of_mem y h)
        · exact .inr ⟨z, List.mem_cons_of_mem y hz, rfl⟩

end Miniss
