import Mathlib

/-!
# Reference counting through raw pointers

An allocation shared by reference counting, handled as a type-erased waker
handles it: the strong count, and the references the code holds to it, as
owned values of the counted pointer (`owned`) or as raw pointers turned out of
one (`raw`). A raw pointer stands for the reference it was made from.

Each primitive (`RcOp`) uses something the code holds (an owned value or a raw
pointer), needs the allocation not yet freed, and is undefined behaviour
(`none`) otherwise. A program is a list of primitives (`RcState.execAll`).

`Balanced`: the strong count is the number of references held. Every
primitive keeps it (`Balanced.exec`), so every program does
(`Balanced.execAll`): code that holds no owned value between its calls leaves
the count equal to the number of raw pointers it holds.
-/

namespace Miniss

/-- The strong count of an allocation and the references held to it. -/
structure RcState where
  strong : Nat
  /-- Owned values of the counted pointer. -/
  owned : Nat
  /-- Raw pointers, each holding the reference it was made from. -/
  raw : Nat
  deriving DecidableEq, Repr

/-- The primitives on a reference-counted pointer. -/
inductive RcOp where
  /-- `from_raw`: a raw pointer back into an owned value. -/
  | fromRaw
  /-- `into_raw`: an owned value into a raw pointer. -/
  | intoRaw
  /-- `clone` of an owned value: one more reference. -/
  | clone
  /-- `mem::forget` of an owned value: its reference is not released, and is
      reached again only through a raw pointer. -/
  | forget
  /-- The drop of an owned value: one reference released. -/
  | drop
  /-- A use of the allocation through a reference held. -/
  | access
  deriving DecidableEq, Repr

namespace RcState

/-- One primitive: `none` where it is undefined behaviour, without the owned
    value or raw pointer it uses or on a freed allocation. -/
def exec (s : RcState) : RcOp → Option RcState
  | .fromRaw =>
    if 0 < s.raw ∧ 0 < s.strong then some { s with raw := s.raw - 1, owned := s.owned + 1 }
    else none
  | .intoRaw => if 0 < s.owned then some { s with owned := s.owned - 1, raw := s.raw + 1 } else none
  | .clone =>
    if 0 < s.owned ∧ 0 < s.strong then some { s with owned := s.owned + 1, strong := s.strong + 1 }
    else none
  | .forget => if 0 < s.owned then some { s with owned := s.owned - 1, raw := s.raw + 1 } else none
  | .drop =>
    if 0 < s.owned ∧ 0 < s.strong then some { s with owned := s.owned - 1, strong := s.strong - 1 }
    else none
  | .access => if 0 < s.owned + s.raw ∧ 0 < s.strong then some s else none

/-- A program of primitives, stopping at the first undefined one. -/
def execAll (s : RcState) (ops : List RcOp) : Option RcState :=
  ops.foldlM exec s

@[simp] theorem execAll_nil (s : RcState) : s.execAll [] = some s := rfl

@[simp] theorem execAll_cons (s : RcState) (op : RcOp) (ops : List RcOp) :
    s.execAll (op :: ops) = (s.exec op).bind (·.execAll ops) := rfl

/-- The strong count is the number of references held. -/
def Balanced (s : RcState) : Prop :=
  s.strong = s.owned + s.raw

instance (s : RcState) : Decidable s.Balanced :=
  inferInstanceAs (Decidable (_ = _))

variable {s s' : RcState} {op : RcOp} {ops : List RcOp}

/-- A primitive changes the strong count by what it changes the references
    held by. -/
theorem exec_count (h : s.exec op = some s') :
    s'.strong + (s.owned + s.raw) = s.strong + (s'.owned + s'.raw) := by
  cases op <;> simp only [RcState.exec, Option.ite_none_right_eq_some, Option.some.injEq] at h <;>
    obtain ⟨hpre, rfl⟩ := h <;> dsimp only <;> omega

/-- Every primitive keeps the count balanced. -/
theorem Balanced.exec (hs : s.Balanced) (h : s.exec op = some s') : s'.Balanced := by
  have := exec_count h
  unfold Balanced at hs ⊢
  omega

/-- The run rule: every program keeps the count balanced. -/
theorem Balanced.execAll (hs : s.Balanced) (h : s.execAll ops = some s') : s'.Balanced := by
  induction ops generalizing s with
  | nil => cases h; exact hs
  | cons op ops ih =>
    obtain ⟨t, ht, h⟩ := Option.bind_eq_some_iff.mp h
    exact ih (hs.exec ht) h

end RcState

end Miniss
