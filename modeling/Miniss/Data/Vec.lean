import Mathlib

/-!
# Vectors with a capacity

A growable vector as `Vec<T>` keeps it: its elements and the capacity of its
buffer, never below their number (`Vec.length_le`). The operations, as the
standard library documents them:

* `clear` drops the elements and keeps the buffer;
* `reserveExact n` grows the buffer to hold `n` more elements than there are,
  no further, and leaves a buffer large enough as it is;
* `resize n x` truncates to `n` elements or fills up to `n` with `x`, growing
  the buffer only when it must, here to exactly `n` (no result below depends
  on how far a buffer that must grow is grown);
* `truncate n`, or `set_len` to a length no larger, keeps the first `n`;
* `overwrite xs` replaces the first elements by `xs`, as far as there are
  elements, as a read into the buffer does;
* `fromElem x n`, the `vec![x; n]` of the standard library, holds `n` copies
  of `x` in a buffer of `n`, and `toVec` of a slice its elements in a buffer
  of their number.

Each has its lemmas for the elements and the capacity, so that no later proof
unfolds it; `data_resize_of_eq_nil` is the one fact the buffer pool rests on,
that a vector emptied and resized holds only the filler.
-/

namespace Miniss

/-- `Vec<T>`: the elements and the capacity of the buffer holding them. -/
structure Vec (α : Type*) where
  data : List α
  capacity : Nat
  length_le : data.length ≤ capacity

namespace Vec

variable {α : Type*}

/-- `Vec::clear`. -/
def clear (v : Vec α) : Vec α :=
  ⟨[], v.capacity, Nat.zero_le _⟩

/-- `Vec::reserve_exact`. -/
def reserveExact (v : Vec α) (additional : Nat) : Vec α :=
  ⟨v.data, max v.capacity (v.data.length + additional),
    le_max_of_le_right (Nat.le_add_right _ _)⟩

/-- `Vec::resize`. -/
def resize (v : Vec α) (n : Nat) (value : α) : Vec α :=
  ⟨v.data.take n ++ List.replicate (n - v.data.length) value, max v.capacity n, by
    have := v.length_le
    simp only [List.length_append, List.length_take, List.length_replicate]
    omega⟩

/-- `Vec::truncate`, and `Vec::set_len` to a length no larger. -/
def truncate (v : Vec α) (n : Nat) : Vec α :=
  ⟨v.data.take n, v.capacity, (List.length_take_le' _ _).trans v.length_le⟩

/-- The first elements replaced by those of `xs`, as far as the vector holds
    them: what a read into the vector's buffer leaves there. -/
def overwrite (v : Vec α) (xs : List α) : Vec α :=
  ⟨xs.take v.data.length ++ v.data.drop xs.length, v.capacity, by
    have := v.length_le
    simp only [List.length_append, List.length_take, List.length_drop]
    omega⟩

/-- `vec![value; n]`. -/
def fromElem (value : α) (n : Nat) : Vec α :=
  ⟨List.replicate n value, n, (List.length_replicate).le⟩

/-- `<[T]>::to_vec`. -/
def toVec (l : List α) : Vec α :=
  ⟨l, l.length, le_rfl⟩

variable (v : Vec α) (n : Nat) (value : α)

@[simp] theorem data_clear : v.clear.data = [] := rfl

@[simp] theorem capacity_clear : v.clear.capacity = v.capacity := rfl

@[simp] theorem data_reserveExact : (v.reserveExact n).data = v.data := rfl

@[simp] theorem capacity_reserveExact :
    (v.reserveExact n).capacity = max v.capacity (v.data.length + n) := rfl

@[simp] theorem data_fromElem : (fromElem value n).data = List.replicate n value := rfl

@[simp] theorem capacity_fromElem : (fromElem value n).capacity = n := rfl

@[simp] theorem capacity_resize : (v.resize n value).capacity = max v.capacity n := rfl

@[simp] theorem length_data_resize : (v.resize n value).data.length = n := by
  have := v.length_le
  simp only [resize, List.length_append, List.length_take, List.length_replicate]
  omega

@[simp] theorem data_truncate : (v.truncate n).data = v.data.take n := rfl

@[simp] theorem length_data_overwrite (xs : List α) :
    (v.overwrite xs).data.length = v.data.length := by
  simp only [overwrite, List.length_append, List.length_take, List.length_drop]
  omega

/-- An empty vector resized holds only the filler. -/
theorem data_resize_of_eq_nil {v : Vec α} (hv : v.data = []) :
    (v.resize n value).data = List.replicate n value := by
  simp [resize, hv]

end Vec

end Miniss
