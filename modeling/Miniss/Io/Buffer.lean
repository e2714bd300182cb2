import Miniss.Data.Vec

/-!
# The buffer pool

`src/buffer.rs`. A `Buffer` wraps a `Vec<u8>`; each thread keeps a pool of
vectors, `CPU_BUFFER_POOL`, a `VecDeque` taken from the front and pushed at the
back, here a list. `Buffer::recycle` clears a buffer, tries to grow it to
`BUFFER_SIZE` with `reserve_exact(BUFFER_SIZE.saturating_sub(capacity))`, and
pushes it only when its capacity is then exactly `BUFFER_SIZE` and the pool has
room. `BufferPool::get(c)` makes a new zeroed vector for `c = 0` or
`c > BUFFER_SIZE`, and otherwise resizes the front vector of the pool to `c`,
zero-filled, when its capacity is enough.

`Buffer::recycle` takes any buffer: those of `new_zeroed`, `from_slice`,
`copy_from_slice` and `set_len` are some of them.

* `PoolInv`: every vector of the pool is empty with capacity `BUFFER_SIZE`,
  and there are at most `POOL_SIZE`; `recycle` and `get` keep it
  (`PoolInv.recycle`, `PoolInv.get`), so every run does (`PoolInv.run`);
* `data_get`: from such a pool, `get(c)` returns `c` zero bytes;
* `recycle_admits_iff`: the `reserve_exact` of `recycle` reaches
  `BUFFER_SIZE` only from a capacity of `BUFFER_SIZE` or `0`, so no other
  buffer is ever pooled again;
* `buffer_pool_fresh`: along every run from the empty pool.
-/

namespace Miniss

/-- `BUFFER_SIZE`. -/
def bufferSize : Nat := 4096

/-- `POOL_SIZE`. -/
def poolSize : Nat := 100

/-- `Buffer`. -/
structure Buffer where
  vec : Vec UInt8

namespace Buffer

/-- `Buffer::new_zeroed`. -/
def newZeroed (capacity : Nat) : Buffer := ⟨Vec.fromElem 0 capacity⟩

/-- `Buffer::from_slice`. -/
def fromSlice (slice : List UInt8) : Buffer := ⟨Vec.toVec slice⟩

/-- `Buffer::copy_from_slice`: resized to the slice's length, then overwritten. -/
def copyFromSlice (b : Buffer) (slice : List UInt8) : Buffer :=
  ⟨⟨slice, (b.vec.resize slice.length 0).capacity, le_max_right _ _⟩⟩

/-- `Buffer::set_len`, to a length no larger than the buffer's. -/
def setLen (b : Buffer) (newLen : Nat) : Buffer := ⟨b.vec.truncate newLen⟩

/-- The vector `recycle` offers to the pool: cleared, then grown by
    `reserve_exact(BUFFER_SIZE.saturating_sub(capacity))`. -/
def recycled (b : Buffer) : Vec UInt8 :=
  b.vec.clear.reserveExact (bufferSize - b.vec.clear.capacity)

/-- `Buffer::recycle`, on the pool of the thread. -/
def recycle (b : Buffer) (pool : List (Vec UInt8)) : List (Vec UInt8) :=
  if b.recycled.capacity = bufferSize then
    if pool.length < poolSize then pool ++ [b.recycled] else pool
  else pool

@[simp] theorem data_recycled (b : Buffer) : b.recycled.data = [] := rfl

@[simp] theorem capacity_recycled (b : Buffer) :
    b.recycled.capacity = max b.vec.capacity (bufferSize - b.vec.capacity) := by
  simp [recycled]

end Buffer

/-- `BufferPool::get`: the buffer, and the pool of the thread after. -/
def BufferPool.get (capacity : Nat) (pool : List (Vec UInt8)) : Buffer × List (Vec UInt8) :=
  if capacity = 0 ∨ capacity > bufferSize then (⟨Vec.fromElem 0 capacity⟩, pool)
  else
    match pool with
    | buffer :: rest =>
      -- a vector too small is dropped
      if buffer.capacity ≥ capacity then (⟨buffer.resize capacity 0⟩, rest)
      else (⟨Vec.fromElem 0 capacity⟩, rest)
    | [] => (⟨Vec.fromElem 0 capacity⟩, [])

/-- A call on the pool of a thread. -/
inductive PoolCall where
  | get (capacity : Nat)
  | recycle (buffer : Buffer)

/-- The pool after a call. -/
def PoolCall.perform (pool : List (Vec UInt8)) : PoolCall → List (Vec UInt8)
  | .get c => (BufferPool.get c pool).2
  | .recycle b => b.recycle pool

/-- The pool after a run of calls. -/
def runPool (pool : List (Vec UInt8)) (calls : List PoolCall) : List (Vec UInt8) :=
  calls.foldl PoolCall.perform pool

/-- Every vector of the pool is empty with capacity `BUFFER_SIZE`, and there
    are at most `POOL_SIZE`. -/
structure PoolInv (pool : List (Vec UInt8)) : Prop where
  fresh : ∀ v ∈ pool, v.data = [] ∧ v.capacity = bufferSize
  length_le : pool.length ≤ poolSize

variable {pool : List (Vec UInt8)}

theorem PoolInv.recycle (hp : PoolInv pool) (b : Buffer) : PoolInv (b.recycle pool) := by
  unfold Buffer.recycle
  split_ifs with hcap hroom
  · refine ⟨fun v hv => ?_, by simp; omega⟩
    rcases List.mem_append.mp hv with hv | hv
    · exact hp.fresh v hv
    · rw [List.mem_singleton.mp hv]
      exact ⟨b.data_recycled, hcap⟩
  · exact hp
  · exact hp

/-- What `get` leaves in the pool is the pool or its tail. -/
theorem get_snd_sublist (c : Nat) (pool : List (Vec UInt8)) :
    List.Sublist (BufferPool.get c pool).2 pool := by
  unfold BufferPool.get
  split
  · exact List.Sublist.refl _
  · split
    · split <;> exact List.sublist_cons_self _ _
    · exact List.Sublist.refl _

theorem PoolInv.get (hp : PoolInv pool) (c : Nat) : PoolInv (BufferPool.get c pool).2 where
  fresh v hv := hp.fresh v ((get_snd_sublist c pool).subset hv)
  length_le := (get_snd_sublist c pool).length_le.trans hp.length_le

theorem PoolInv.perform (hp : PoolInv pool) : ∀ call, PoolInv (PoolCall.perform pool call)
  | .get c => hp.get c
  | .recycle b => hp.recycle b

/-- The run lemma, by induction on the calls. -/
theorem PoolInv.run (hp : PoolInv pool) (calls : List PoolCall) : PoolInv (runPool pool calls) := by
  induction calls generalizing pool with
  | nil => exact hp
  | cons call calls ih => exact ih (hp.perform call)

/-- From a pool of the invariant, `get(c)` returns `c` zero bytes: a new
    zeroed vector, or an empty one of the pool resized with zeros. -/
theorem data_get (hp : PoolInv pool) (c : Nat) :
    (BufferPool.get c pool).1.vec.data = List.replicate c 0 := by
  unfold BufferPool.get
  split
  · rfl
  · split
    · rename_i buffer rest
      split
      · exact Vec.data_resize_of_eq_nil c 0 (hp.fresh buffer List.mem_cons_self).1
      · rfl
    · rfl

/-- The length of `BufferPool::get(c)` is `c`, whatever the pool. -/
theorem length_get (c : Nat) (pool : List (Vec UInt8)) :
    (BufferPool.get c pool).1.vec.data.length = c := by
  unfold BufferPool.get
  split
  · simp
  · split
    · split <;> simp
    · simp

/-- `recycle` pushes a buffer only if its capacity is `BUFFER_SIZE` or `0`:
    from any other, `reserve_exact(BUFFER_SIZE - capacity)` stops short of
    `BUFFER_SIZE` or leaves a larger capacity. -/
theorem recycle_admits_iff (b : Buffer) (pool : List (Vec UInt8)) :
    b.recycle pool = pool ++ [b.recycled] ↔
      (b.vec.capacity = bufferSize ∨ b.vec.capacity = 0) ∧ pool.length < poolSize := by
  have hcap : b.recycled.capacity = bufferSize ↔
      b.vec.capacity = bufferSize ∨ b.vec.capacity = 0 := by
    rw [Buffer.capacity_recycled, bufferSize]
    omega
  rw [← hcap]
  unfold Buffer.recycle
  split_ifs with h hroom
  · exact iff_of_true rfl ⟨h, hroom⟩
  · exact iff_of_false (by simp) fun hc => hroom hc.2
  · exact iff_of_false (by simp) fun hc => h hc.1

theorem poolInv_nil : PoolInv [] :=
  ⟨fun _ hv => absurd hv List.not_mem_nil, Nat.zero_le _⟩

/-- Along every run of `get` and `recycle` calls from the empty pool, every
    vector of the pool is empty with capacity `BUFFER_SIZE`, there are at most
    `POOL_SIZE`, and `get(c)` returns `c` zero bytes. -/
theorem buffer_pool_fresh (calls : List PoolCall) :
    (∀ v ∈ runPool [] calls, v.data = [] ∧ v.capacity = bufferSize) ∧
      (runPool [] calls).length ≤ poolSize ∧
      ∀ c, (BufferPool.get c (runPool [] calls)).1.vec.data = List.replicate c 0 := by
  have hp := poolInv_nil.run calls
  exact ⟨hp.fresh, hp.length_le, data_get hp⟩

/- A buffer of capacity 1000 is not pooled, one of capacity 4096 is. -/
example : (runPool [] [.recycle (Buffer.newZeroed 1000), .recycle (Buffer.newZeroed 4096)]).map
    (·.capacity) = [4096] := by decide

end Miniss
