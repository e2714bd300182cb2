import Miniss.Data.RefCount
import Miniss.Runtime.Task

/-!
# The waker of a task

`src/waker.rs`. `MinissWaker::create_waker` puts the task id and the ready
queue in an `Arc` and turns it into the raw pointer of a `RawWaker`. Each
function of its vtable takes the `Arc` back from that pointer, as a program of
the primitives of `Miniss.Data.RefCount`:

* `waker_clone`: `from_raw`, `clone`, `forget` of the original, `into_raw` of
  the clone;
* `waker_wake`: `from_raw`, `wake_impl` through it, and its drop as the
  function returns;
* `waker_wake_by_ref`: `wake_impl` through a borrow of the raw pointer;
* `waker_drop`: `from_raw`, dropped at once.

A `WakerRun` follows the `Waker` values derived from one `create_waker`, each
holding one raw pointer: `Waker::clone` calls `waker_clone` and makes a new
value, `Waker::wake` consumes the value, `Waker::wake_by_ref` does not, and
the drop of a value calls `waker_drop`. `wake_impl` pushes the task id onto
the ready queue, here the list of the ids pushed; the `Arc` of the queue
itself is left out.

* `WakerRun.Inv`: between calls no owned `Arc` is held and every live `Waker`
  value holds one raw pointer, so the strong count is their number;
* `WakerRun.Inv.step`, `WakerRun.Inv.run`: no call is undefined behaviour and
  each keeps the invariant;
* `waker_refcount_balanced`: along every run from `create_waker`.
-/

namespace Miniss

/-- `waker_clone`. -/
def wakerClone : List RcOp := [.fromRaw, .clone, .forget, .intoRaw]

/-- `waker_wake`: the `Arc` taken back is dropped as the function returns. -/
def wakerWake : List RcOp := [.fromRaw, .access, .drop]

/-- `waker_wake_by_ref`: `wake_impl` through a borrow of the raw pointer. -/
def wakerWakeByRef : List RcOp := [.access]

/-- `waker_drop`: the `Arc` taken back is dropped at once. -/
def wakerDrop : List RcOp := [.fromRaw, .drop]

namespace RcState

variable {rc : RcState}

theorem execAll_wakerClone (hr : 0 < rc.raw) (hs : 0 < rc.strong) :
    rc.execAll wakerClone = some { rc with strong := rc.strong + 1, raw := rc.raw + 1 } := by
  simp [wakerClone, exec, hr, hs, Nat.sub_add_cancel (show 1 ≤ rc.raw from hr)]

theorem execAll_wakerWake (hr : 0 < rc.raw) (hs : 0 < rc.strong) :
    rc.execAll wakerWake = some { rc with strong := rc.strong - 1, raw := rc.raw - 1 } := by
  simp [wakerWake, exec, hr, hs]

theorem execAll_wakerWakeByRef (hr : 0 < rc.raw) (hs : 0 < rc.strong) :
    rc.execAll wakerWakeByRef = some rc := by
  simp [wakerWakeByRef, exec, hr, hs]

theorem execAll_wakerDrop (hr : 0 < rc.raw) (hs : 0 < rc.strong) :
    rc.execAll wakerDrop = some { rc with strong := rc.strong - 1, raw := rc.raw - 1 } := by
  simp [wakerDrop, exec, hr, hs]

end RcState

/-- A call on a `Waker` value, named by its number. -/
inductive WakerCall where
  /-- `Waker::clone`: a new value. -/
  | clone (w : Nat)
  /-- `Waker::wake`, which consumes the value. -/
  | wake (w : Nat)
  /-- `Waker::wake_by_ref`. -/
  | wakeByRef (w : Nat)
  /-- The drop of the value. -/
  | drop (w : Nat)
  deriving DecidableEq, Repr

/-- The value a call is on. -/
def WakerCall.target : WakerCall → Nat
  | .clone w | .wake w | .wakeByRef w | .drop w => w

/-- The `Waker` values derived from one `create_waker`, and the `Arc` behind them. -/
structure WakerRun where
  taskId : TaskId
  rc : RcState
  /-- The live `Waker` values, by number. -/
  live : List Nat
  /-- The number of the next `Waker` value. -/
  next : Nat
  /-- The ready queue: the task ids pushed onto it. -/
  queue : List TaskId

namespace WakerRun

/-- `MinissWaker::create_waker`: `Arc::new`, then `Arc::into_raw` into the
    `Waker` value `0`. -/
def createWaker (taskId : TaskId) (queue : List TaskId) : Option WakerRun :=
  ((⟨1, 1, 0⟩ : RcState).exec .intoRaw).map fun rc => ⟨taskId, rc, [0], 1, queue⟩

/-- `MinissWaker::wake_impl`. -/
def wakeImpl (s : WakerRun) : WakerRun :=
  { s with queue := s.queue ++ [s.taskId] }

@[simp] theorem wakeImpl_rc (s : WakerRun) : s.wakeImpl.rc = s.rc := rfl

@[simp] theorem wakeImpl_live (s : WakerRun) : s.wakeImpl.live = s.live := rfl

@[simp] theorem wakeImpl_queue (s : WakerRun) : s.wakeImpl.queue = s.queue ++ [s.taskId] := rfl

/-- One call, `none` where its vtable function is undefined behaviour. A call
    on a value that is not live cannot be written (the value was moved), and
    changes nothing. -/
def step (s : WakerRun) : WakerCall → Option WakerRun
  | .clone w =>
    if w ∈ s.live then
      (s.rc.execAll wakerClone).map fun rc =>
        { s with rc, live := s.live ++ [s.next], next := s.next + 1 }
    else some s
  | .wake w =>
    if w ∈ s.live then
      (s.rc.execAll wakerWake).map fun rc => { s.wakeImpl with rc, live := s.live.erase w }
    else some s
  | .wakeByRef w =>
    if w ∈ s.live then (s.rc.execAll wakerWakeByRef).map fun rc => { s.wakeImpl with rc }
    else some s
  | .drop w =>
    if w ∈ s.live then
      (s.rc.execAll wakerDrop).map fun rc => { s with rc, live := s.live.erase w }
    else some s

/-- A run of calls, stopping at the first undefined one. -/
def run (s : WakerRun) (calls : List WakerCall) : Option WakerRun :=
  calls.foldlM step s

@[simp] theorem run_nil (s : WakerRun) : s.run [] = some s := rfl

@[simp] theorem run_cons (s : WakerRun) (c : WakerCall) (calls : List WakerCall) :
    s.run (c :: calls) = (s.step c).bind (·.run calls) := rfl

/-- Between calls no owned `Arc` is held, and each live `Waker` value holds one
    raw pointer. -/
structure Inv (s : WakerRun) : Prop where
  balanced : s.rc.Balanced
  owned_eq_zero : s.rc.owned = 0
  raw_eq : s.rc.raw = s.live.length
  nodup : s.live.Nodup
  lt_next : ∀ w ∈ s.live, w < s.next

variable {s : WakerRun} {w : Nat}

theorem Inv.strong_eq (hs : s.Inv) : s.rc.strong = s.live.length := by
  rw [hs.balanced, hs.owned_eq_zero, hs.raw_eq, Nat.zero_add]

/-- A live value holds a raw pointer to an allocation not freed. -/
theorem Inv.pos_of_mem (hs : s.Inv) (hw : w ∈ s.live) : 0 < s.rc.raw ∧ 0 < s.rc.strong := by
  have hlen : 0 < s.live.length := List.length_pos_of_mem hw
  exact ⟨hs.raw_eq ▸ hlen, hs.strong_eq ▸ hlen⟩

theorem step_of_not_mem {c : WakerCall} (hc : c.target ∉ s.live) : s.step c = some s := by
  cases c <;> simp_all [step, WakerCall.target]

theorem step_clone (hs : s.Inv) (hw : w ∈ s.live) :
    s.step (.clone w) = some { s with
      rc := { s.rc with strong := s.rc.strong + 1, raw := s.rc.raw + 1 },
      live := s.live ++ [s.next], next := s.next + 1 } := by
  obtain ⟨hr, hst⟩ := hs.pos_of_mem hw
  simp [step, hw, RcState.execAll_wakerClone hr hst]

theorem step_wake (hs : s.Inv) (hw : w ∈ s.live) :
    s.step (.wake w) = some { s.wakeImpl with
      rc := { s.rc with strong := s.rc.strong - 1, raw := s.rc.raw - 1 },
      live := s.live.erase w } := by
  obtain ⟨hr, hst⟩ := hs.pos_of_mem hw
  simp [step, hw, RcState.execAll_wakerWake hr hst]

theorem step_wakeByRef (hs : s.Inv) (hw : w ∈ s.live) :
    s.step (.wakeByRef w) = some s.wakeImpl := by
  obtain ⟨hr, hst⟩ := hs.pos_of_mem hw
  rw [step, if_pos hw, RcState.execAll_wakerWakeByRef hr hst]
  rfl

theorem step_drop (hs : s.Inv) (hw : w ∈ s.live) :
    s.step (.drop w) = some { s with
      rc := { s.rc with strong := s.rc.strong - 1, raw := s.rc.raw - 1 },
      live := s.live.erase w } := by
  obtain ⟨hr, hst⟩ := hs.pos_of_mem hw
  simp [step, hw, RcState.execAll_wakerDrop hr hst]

/-- The invariant reads the count, the live values and the next number only. -/
theorem Inv.congr {t : WakerRun} (hs : s.Inv) (hrc : t.rc = s.rc) (hlive : t.live = s.live)
    (hnext : t.next = s.next) : t.Inv := by
  obtain ⟨_, rc, live, next, _⟩ := t
  dsimp only at hrc hlive hnext
  subst hrc hlive hnext
  exact ⟨hs.balanced, hs.owned_eq_zero, hs.raw_eq, hs.nodup, hs.lt_next⟩

/-- `Waker::clone` adds a value with a raw pointer of its own. -/
theorem Inv.clone (hs : s.Inv) : Inv { s with
    rc := { s.rc with strong := s.rc.strong + 1, raw := s.rc.raw + 1 },
    live := s.live ++ [s.next], next := s.next + 1 } where
  balanced := by
    have := hs.balanced
    unfold RcState.Balanced at this ⊢
    dsimp only
    omega
  owned_eq_zero := hs.owned_eq_zero
  raw_eq := by simp [hs.raw_eq]
  nodup := by
    have hfresh : ∀ v ∈ s.live, v ≠ s.next := fun v hv h => Nat.lt_irrefl _ (h ▸ hs.lt_next v hv)
    simpa [List.nodup_append, hs.nodup] using hfresh
  lt_next v hv := by
    rcases List.mem_append.mp hv with hv | hv
    · exact Nat.lt_succ_of_lt (hs.lt_next v hv)
    · rw [List.mem_singleton.mp hv]
      exact Nat.lt_succ_self _

/-- `Waker::wake` and the drop of a value consume it with its raw pointer. -/
theorem Inv.erase (hs : s.Inv) (hw : w ∈ s.live) : Inv { s with
    rc := { s.rc with strong := s.rc.strong - 1, raw := s.rc.raw - 1 },
    live := s.live.erase w } where
  balanced := by
    have hbal := hs.balanced
    have hr := (hs.pos_of_mem hw).1
    unfold RcState.Balanced at hbal ⊢
    dsimp only
    omega
  owned_eq_zero := hs.owned_eq_zero
  raw_eq := by simp [List.length_erase_of_mem hw, hs.raw_eq]
  nodup := hs.nodup.erase w
  lt_next v hv := hs.lt_next v (List.mem_of_mem_erase hv)

/-- The step lemma: no call is undefined behaviour, and each keeps the
    invariant and the task id. -/
theorem Inv.step (hs : s.Inv) (c : WakerCall) :
    ∃ s', s.step c = some s' ∧ s'.Inv ∧ s'.taskId = s.taskId := by
  by_cases hw : c.target ∈ s.live
  · cases c with
    | clone w => exact ⟨_, step_clone hs hw, hs.clone, rfl⟩
    | wake w => exact ⟨_, step_wake hs hw, (hs.erase hw).congr rfl rfl rfl, rfl⟩
    | wakeByRef w => exact ⟨_, step_wakeByRef hs hw, hs.congr rfl rfl rfl, rfl⟩
    | drop w => exact ⟨_, step_drop hs hw, hs.erase hw, rfl⟩
  · exact ⟨s, step_of_not_mem hw, hs, rfl⟩

/-- The run lemma, by induction on the calls. -/
theorem Inv.run (hs : s.Inv) (calls : List WakerCall) :
    ∃ s', s.run calls = some s' ∧ s'.Inv ∧ s'.taskId = s.taskId := by
  induction calls generalizing s with
  | nil => exact ⟨s, rfl, hs, rfl⟩
  | cons c calls ih =>
    obtain ⟨t, hstep, ht, htask⟩ := hs.step c
    obtain ⟨s', hrun, hs', htask'⟩ := ih ht
    exact ⟨s', by rw [run_cons, hstep, Option.bind_some, hrun], hs', htask'.trans htask⟩

theorem createWaker_eq (taskId : TaskId) (queue : List TaskId) :
    createWaker taskId queue = some ⟨taskId, ⟨1, 0, 1⟩, [0], 1, queue⟩ := rfl

theorem inv_createWaker (taskId : TaskId) (queue : List TaskId) :
    Inv ⟨taskId, ⟨1, 0, 1⟩, [0], 1, queue⟩ where
  balanced := rfl
  owned_eq_zero := rfl
  raw_eq := rfl
  nodup := List.nodup_singleton 0
  lt_next := by simp

end WakerRun

open WakerRun in
/-- Along every run of calls on the `Waker` values derived from one
    `create_waker`, no vtable function is undefined behaviour, the strong count
    of the `Arc` is the number of live values, so it is zero exactly when none
    is live, and a wake or wake by reference of a live value pushes the task id
    once onto the ready queue. -/
theorem waker_refcount_balanced (taskId : TaskId) (queue : List TaskId)
    (calls : List WakerCall) :
    ∃ s₀ s, createWaker taskId queue = some s₀ ∧ s₀.run calls = some s ∧
      s.rc.strong = s.live.length ∧ (s.rc.strong = 0 ↔ s.live = []) ∧
      ∀ w ∈ s.live,
        (∃ s', s.step (.wake w) = some s' ∧ s'.queue = s.queue ++ [taskId]) ∧
        (∃ s', s.step (.wakeByRef w) = some s' ∧ s'.queue = s.queue ++ [taskId]) := by
  obtain ⟨s, hrun, hs, htask⟩ := (inv_createWaker taskId queue).run calls
  refine ⟨_, s, createWaker_eq taskId queue, hrun, hs.strong_eq, ?_, fun w hw => ?_⟩
  · rw [hs.strong_eq, List.length_eq_zero_iff]
  · have hpush : s.queue ++ [s.taskId] = s.queue ++ [taskId] := by rw [htask]
    exact ⟨⟨_, step_wake hs hw, hpush⟩, ⟨_, step_wakeByRef hs hw, hpush⟩⟩

/- A clone woken and the original dropped: the `Arc` is freed, after one push. -/
example : ((WakerRun.createWaker ⟨7⟩ []).bind (·.run [.clone 0, .wake 1, .drop 0])).map
    (fun s => (s.rc.strong, s.live, s.queue)) = some (0, [], [⟨7⟩]) := rfl

end Miniss
