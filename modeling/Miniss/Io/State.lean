import Mathlib

/-!
# The hand-off of I/O completions

`CpuIoState` (`src/cpu.rs`) holds, per `IoToken`, the waker of the `IoFuture`
waiting for the operation, and the result of the operation once completed.

* `IoFuture::poll` (`src/io/future.rs`) takes the result of its token out of
  `completed_io` if it is there, and otherwise registers the waker of its
  context under its token, replacing any earlier one;
* a delivery of a batch of completions, by `Cpu::poll_io_completions` or by the
  loop of `Runtime::block_on`, stores each result under its token and wakes the
  waker registered under it, taking it out (`CpuIoState.deliver`).

The two loops take the two locks in opposite orders; on the one thread of a
runtime that is the same thing. Tokens are drawn from the global
`TOKEN_COUNTER`, starting at `1`, by every backend's `submit`
(`IoToken.new`). Wakers and results are left abstract (`W`, `R`).

* `lookup_deliver_completedIo`, `lookup_deliver_ioWakers`: a delivery stores
  the results of the batch, the last one for a token winning, and takes out the
  wakers of its tokens;
* `deliver_woken`: a batch of distinct tokens wakes, token by token, the waker
  registered under each.
-/

namespace Miniss

/-- `IoToken`: the id of a submitted operation. -/
structure IoToken where
  id : Nat
  deriving DecidableEq, Repr

/-- `IoToken::new`: the value of `TOKEN_COUNTER`, which moves on by one. -/
def IoToken.new (counter : Nat) : IoToken × Nat := (⟨counter⟩, counter + 1)

/-- The maps of a `CpuIoState`; its backend is outside the model. -/
structure CpuIoState (W R : Type*) where
  ioWakers : AList (fun _ : IoToken => W)
  completedIo : AList (fun _ : IoToken => R)

section lookup

variable {α β : Type*} [DecidableEq α] {l : List (α × β)} {a : α} {b : β}

/-- In a list of pairs with distinct keys, a pair is found by its key. -/
theorem lookup_of_mem_of_nodup (h : (l.map Prod.fst).Nodup) (hm : (a, b) ∈ l) : l.lookup a = some b := by
  induction l with
  | nil => cases hm
  | cons p l ih =>
    obtain ⟨a', b'⟩ := p
    rw [List.map_cons, List.nodup_cons] at h
    rcases List.mem_cons.1 hm with he | hm
    · cases he
      simp
    · have ha : a ∈ l.map Prod.fst := List.mem_map_of_mem hm
      have hne : a ≠ a' := fun he => h.1 (he ▸ ha)
      simp [List.lookup_cons, beq_false_of_ne hne, ih h.2 hm]

theorem lookup_eq_none_of_not_mem (h : a ∉ l.map Prod.fst) : l.lookup a = none :=
  List.lookup_eq_none_iff.2 fun p hp => by
    have hne : a ≠ p.1 := fun he => h (he ▸ List.mem_map_of_mem hp)
    simpa using hne

end lookup

namespace CpuIoState

variable {W R : Type*}

/-- The maps of a new `CpuIoState`, both empty. -/
def new : CpuIoState W R := ⟨∅, ∅⟩

/-- The body of the delivery loop for one completion:
    `completed.insert(token, result)`, then the waker taken out of `io_wakers`,
    to be woken. -/
def complete (st : CpuIoState W R) (token : IoToken) (result : R) : CpuIoState W R × Option W :=
  ({ ioWakers := st.ioWakers.erase token, completedIo := st.completedIo.insert token result },
    st.ioWakers.lookup token)

/-- The delivery of a batch of completions: the maps after it, and the wakers
    woken, in order. -/
def deliver (st : CpuIoState W R) : List (IoToken × R) → CpuIoState W R × List W
  | [] => (st, [])
  | (token, result) :: rest =>
    let r := st.complete token result
    let r' := deliver r.1 rest
    (r'.1, r.2.toList ++ r'.2)

variable {st : CpuIoState W R} {token t : IoToken} {result : R} {rest : List (IoToken × R)}

theorem deliver_cons :
    st.deliver ((token, result) :: rest) =
      (((st.complete token result).1.deliver rest).1,
        (st.complete token result).2.toList ++ ((st.complete token result).1.deliver rest).2) := rfl

/-- After a delivery, the result of a token is the last one of the batch, or
    the one stored before. -/
theorem lookup_deliver_completedIo (batch : List (IoToken × R)) :
    (st.deliver batch).1.completedIo.lookup t = (batch.reverse.lookup t).or (st.completedIo.lookup t) := by
  induction batch generalizing st with
  | nil => simp [deliver]
  | cons p rest ih =>
    obtain ⟨token, result⟩ := p
    rw [deliver_cons, ih, List.reverse_cons, List.lookup_append, Option.or_assoc]
    congr 1
    by_cases ht : t = token
    · subst ht
      simp [complete]
    · simp [complete, List.lookup_cons, AList.lookup_insert_ne ht, beq_false_of_ne ht]

/-- After a delivery, no waker is registered under a token of the batch, and
    the others stay. -/
theorem lookup_deliver_ioWakers (batch : List (IoToken × R)) :
    (st.deliver batch).1.ioWakers.lookup t =
      if t ∈ batch.map Prod.fst then none else st.ioWakers.lookup t := by
  induction batch generalizing st with
  | nil => simp [deliver]
  | cons p rest ih =>
    obtain ⟨token, result⟩ := p
    rw [deliver_cons, ih]
    by_cases ht : t = token
    · subst ht
      simp [complete]
    · by_cases hr : t ∈ rest.map Prod.fst
      · simp [hr]
      · simp [complete, hr, ht, AList.lookup_erase_ne ht]

/-- A batch of distinct tokens wakes, in order, the waker registered under each
    of its tokens before the delivery. -/
theorem deliver_woken {batch : List (IoToken × R)} (h : (batch.map Prod.fst).Nodup) :
    (st.deliver batch).2 = batch.filterMap fun p => st.ioWakers.lookup p.1 := by
  induction batch generalizing st with
  | nil => rfl
  | cons p rest ih =>
    obtain ⟨token, result⟩ := p
    rw [List.map_cons, List.nodup_cons] at h
    have hnot : token ∉ rest.map Prod.fst := h.1
    rw [deliver_cons, ih h.2, List.filterMap_cons]
    -- The later tokens of the batch are not the one just delivered.
    have hrest : (rest.filterMap fun p => (st.complete token result).1.ioWakers.lookup p.1) =
        rest.filterMap fun p => st.ioWakers.lookup p.1 := by
      refine List.filterMap_congr fun q hq => ?_
      have hne : q.1 ≠ token := fun he => hnot (he ▸ List.mem_map_of_mem hq)
      simp [complete, AList.lookup_erase_ne hne]
    rw [hrest]
    cases hw : st.ioWakers.lookup token <;> simp [complete, hw]

end CpuIoState

namespace IoFuture

variable {W R : Type*}

/-- `IoFuture::poll` of the future for `token`, with the waker of its context:
    the result, if completed, taken out; otherwise the waker registered. -/
def poll (st : CpuIoState W R) (token : IoToken) (waker : W) : Option R × CpuIoState W R :=
  match st.completedIo.lookup token with
  | some result => (some result, { st with completedIo := st.completedIo.erase token })
  | none => (none, { st with ioWakers := st.ioWakers.insert token waker })

/-- `Drop for IoFuture`: its waker and its result, if any, taken out. -/
def drop (st : CpuIoState W R) (token : IoToken) : CpuIoState W R :=
  { ioWakers := st.ioWakers.erase token, completedIo := st.completedIo.erase token }

variable {st : CpuIoState W R} {token : IoToken} {waker : W} {result : R}

theorem poll_of_lookup_some (h : st.completedIo.lookup token = some result) :
    poll st token waker = (some result, { st with completedIo := st.completedIo.erase token }) := by
  rw [poll, h]

theorem poll_of_lookup_none (h : st.completedIo.lookup token = none) :
    poll st token waker = (none, { st with ioWakers := st.ioWakers.insert token waker }) := by
  rw [poll, h]

end IoFuture

end Miniss
