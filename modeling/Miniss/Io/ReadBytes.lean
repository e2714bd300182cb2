import Miniss.Io.UringRun
import Miniss.Data.Run

/-!
# What a read through io_uring returns

`src/io/uring.rs`. A `Read` or `ReadFile` op reads into a buffer of `len`
bytes that `submit` takes with `BufferPool::get(len)`; the kernel writes its
bytes over the buffer, and `poll_complete` cuts it with `set_len(bytes_read)`.
A `UdpRecv` reads into the buffer its op hands in. The vectors of the pool are
recycled ones, so a read returns no byte of an earlier buffer only because
`get` fills them with zeros (`data_get`, from the invariant of the pool).

* `reap_lookup`, `reap_completes`: the loop of `poll_complete` only takes
  pending ops out, and each completion it returns is that of the op pending
  under the `user_data` of one of its CQEs;
* `PoolInv.reap`: the loop keeps the invariant of the pool;
* `PendingOp.readFrom_complete`: a read completed from a buffer of zeros
  returns the kernel's bytes, then zeros;
* `UringRun.Zeroed`: along every run the pool keeps its invariant, every read
  pending holds a buffer of zeros as long as its op asks for, and so every
  completion reported returns, of the bytes it read, what the kernel posted
  for its token (`uring_reads_kernel_bytes`).
-/

namespace Miniss

variable {A : Type*}

/-- Bytes written over zeros and cut within them: the bytes, then zeros. -/
theorem take_overwrite_replicate {α : Type*} (bytes : List α) (x : α) {len n : Nat}
    (hn : n ≤ len) :
    (bytes.take len ++ (List.replicate len x).drop bytes.length).take n =
      (bytes ++ List.replicate len x).take n := by
  simp only [List.drop_replicate, List.take_append, List.take_take, List.length_take,
    List.take_replicate]
  have hcount : min (n - min len bytes.length) (len - bytes.length) =
      min (n - bytes.length) len := by omega
  rw [Nat.min_eq_left hn, hcount]

/-- The bytes of a read buffer after the kernel wrote into it and `set_len`. -/
theorem Buffer.data_readInto {buf b : Buffer} {n : Nat} {bytes : List UInt8}
    (h : buf.readInto n bytes = some b) : n ≤ buf.vec.data.length ∧
      b.vec.data = (bytes.take buf.vec.data.length ++ buf.vec.data.drop bytes.length).take n := by
  unfold Buffer.readInto at h
  split_ifs at h with hn
  cases h
  exact ⟨hn, rfl⟩

/-! ## Pending reads and what they return -/

/-- A pending op as `submit` builds it from a pool of the invariant: a read
    keeps a buffer of zeros, as long as its op asks for; a `UdpRecv` keeps the
    buffer of its op. -/
def PendingOp.Zeroed : PendingOp A → Prop
  | .read op buf => ∃ fd offset len, op = .read fd offset len ∧ buf.vec.data = List.replicate len 0
  | .readFile op buf =>
    ∃ fd offset len, op = .readFile fd offset len ∧ buf.vec.data = List.replicate len 0
  | .udpRecv op buffer => ∃ fd, op = .udpRecv fd buffer
  | _ => True

/-- What a completion returns of the bytes the kernel posted in `cqe`: a
    `Read` or `ReadFile` of `len` bytes read `n ≤ len` bytes, the first `n` of
    those the kernel wrote followed by zeros; a `UdpRecv` read `n` bytes of
    its buffer with the kernel's bytes written over it. -/
def ReadFrom (cqe : Cqe A) (op : Op A) : Except IoError (CompletionKind A) → Prop
  | .ok (.read n data) => ∃ fd offset len, op = .read fd offset len ∧ n ≤ len ∧
      data.vec.data = (cqe.bytes ++ List.replicate len 0).take n
  | .ok (.readFile n data) => ∃ fd offset len, op = .readFile fd offset len ∧ n ≤ len ∧
      data.vec.data = (cqe.bytes ++ List.replicate len 0).take n
  | .ok (.udpRecv n received _) => ∃ fd buffer, op = .udpRecv fd buffer ∧
      n ≤ buffer.vec.data.length ∧
      received.vec.data =
        (cqe.bytes.take buffer.vec.data.length ++ buffer.vec.data.drop cqe.bytes.length).take n
  | _ => True

/-- `prepare` takes a read's buffer of zeros from a pool of the invariant. -/
theorem zeroed_prepare {pool : List (Vec UInt8)} (hp : PoolInv pool) (userData : Nat)
    (op : Op A) : (prepare userData op pool).2.1.Zeroed := by
  cases op with
  | read fd offset len | readFile fd offset len => exact ⟨fd, offset, len, rfl, data_get hp len⟩
  | udpRecv fd buffer => exact ⟨fd, rfl⟩
  | accept | write | fsync | close | writeFile | udpSend => trivial

theorem PoolInv.prepare {pool : List (Vec UInt8)} (hp : PoolInv pool) (userData : Nat)
    (op : Op A) : PoolInv (prepare userData op pool).2.2 := by
  cases op with
  | read fd offset len | readFile fd offset len => exact hp.get len
  | accept | write | fsync | close | writeFile | udpRecv | udpSend => exact hp

/-- A read from a buffer of zeros returns the kernel's bytes, then zeros. -/
theorem completeRead_data {mk : Nat → Buffer → CompletionKind A} {op op' : Op A} {buf : Buffer}
    {cqe : Cqe A} {pool pool' : List (Vec UInt8)} {k : CompletionKind A} {len : Nat}
    (hzero : buf.vec.data = List.replicate len 0)
    (h : completeRead mk op buf cqe pool = some ((op', .ok k), pool')) :
    op' = op ∧ ∃ b, k = mk cqe.result.toInt.toNat b ∧ cqe.result.toInt.toNat ≤ len ∧
      b.vec.data = (cqe.bytes ++ List.replicate len 0).take cqe.result.toInt.toNat := by
  unfold completeRead at h
  split_ifs at h with hr
  · cases h
  · obtain ⟨b, hb, hres⟩ := Option.map_eq_some_iff.mp h
    cases hres
    obtain ⟨hn, hdata⟩ := Buffer.data_readInto hb
    rw [hzero, List.length_replicate] at hn hdata
    exact ⟨rfl, b, rfl, hn, hdata.trans (take_overwrite_replicate cqe.bytes 0 hn)⟩

/-- Each completion of a pending op built from a pool of the invariant
    returns what the kernel posted for it. -/
theorem PendingOp.readFrom_complete {p : PendingOp A} (hz : p.Zeroed) {cqe : Cqe A}
    {pool pool' : List (Vec UInt8)} {op : Op A} {res : Except IoError (CompletionKind A)}
    (h : p.complete cqe pool = some ((op, res), pool')) : ReadFrom cqe op res := by
  cases p with
  | read op₀ buf | readFile op₀ buf =>
    obtain ⟨fd, offset, len, rfl, hzero⟩ := hz
    rcases res with e | k
    · trivial
    · obtain ⟨rfl, b, rfl, hn, hdata⟩ := completeRead_data hzero h
      exact ⟨fd, offset, len, rfl, hn, hdata⟩
  | udpRecv op₀ buffer =>
    obtain ⟨fd, rfl⟩ := hz
    unfold PendingOp.complete completeUdpRecv at h
    split_ifs at h with hr
    · cases h
      trivial
    · obtain ⟨b, hb, hres⟩ := Option.map_eq_some_iff.mp h
      obtain ⟨hn, hdata⟩ := Buffer.data_readInto hb
      split at hres
      · cases hres
        exact ⟨fd, buffer, rfl, hn, hdata⟩
      · cases hres
        trivial
  -- the other ops complete with no bytes read
  | accept op₀ =>
    cases h
    unfold completeAccept
    split_ifs
    · trivial
    · split <;> trivial
  | write op₀ data | writeFile op₀ data =>
    have h' := Option.some.inj h
    unfold completeWrite at h'
    split_ifs at h' <;> cases h' <;> trivial
  | fsync op₀ | close op₀ =>
    cases h
    unfold completeUnit
    split_ifs <;> trivial
  | udpSend op₀ data =>
    cases h
    unfold completeUdpSend
    split_ifs <;> trivial

/-- Completing an op only recycles its buffer into the pool. -/
theorem PoolInv.complete {pool pool' : List (Vec UInt8)} (hpool : PoolInv pool) {p : PendingOp A}
    {cqe : Cqe A} {x : Op A × Except IoError (CompletionKind A)}
    (h : p.complete cqe pool = some (x, pool')) : PoolInv pool' := by
  cases p with
  | read op buf | readFile op buf =>
    unfold PendingOp.complete completeRead at h
    split_ifs at h
    · cases h
      exact hpool.recycle buf
    · obtain ⟨b, -, hres⟩ := Option.map_eq_some_iff.mp h
      cases hres
      exact hpool
  | udpRecv op buffer =>
    unfold PendingOp.complete completeUdpRecv at h
    split_ifs at h
    · cases h
      exact hpool.recycle buffer
    · obtain ⟨b, -, hres⟩ := Option.map_eq_some_iff.mp h
      split at hres <;> cases hres <;> exact hpool
  | write op data | writeFile op data =>
    have h' := Option.some.inj h
    unfold completeWrite at h'
    split_ifs at h' <;> cases h' <;> exact hpool.recycle data
  | accept | fsync | close | udpSend =>
    cases h
    exact hpool

/-! ## The loop of `poll_complete` -/

section reap

variable {pendingOps pendingOps' : AList fun _ : Nat => PendingOp A}
  {pool pool' : List (Vec UInt8)} {cqs : List (Cqe A)} {cs : List (Completion A)}

/-- What is left after an `erase` was there before. -/
theorem lookup_of_lookup_erase {β : Nat → Type*} {s : AList β} {a u : Nat} {b : β u}
    (h : (s.erase a).lookup u = some b) : s.lookup u = some b := by
  by_cases he : u = a
  · subst he
    rw [AList.lookup_erase] at h
    cases h
  · rwa [AList.lookup_erase_ne he] at h

/-- The loop only takes pending ops out. -/
theorem reap_lookup (h : reap pendingOps pool cqs = some (pendingOps', pool', cs)) {u : Nat}
    {p : PendingOp A} (hp : pendingOps'.lookup u = some p) : pendingOps.lookup u = some p := by
  induction cqs generalizing pendingOps pool cs with
  | nil =>
    cases h
    exact hp
  | cons cqe cqes ih =>
    rw [reap] at h
    split at h
    · split at h
      · obtain ⟨⟨po₂, pool₂, cs₂⟩, hr, heq⟩ := Option.map_eq_some_iff.mp h
        cases heq
        exact lookup_of_lookup_erase (ih hr)
      · cases h
    · exact ih h

/-- Each completion of the loop is that of the op pending under the
    `user_data` of one of its CQEs. -/
theorem reap_completes (h : reap pendingOps pool cqs = some (pendingOps', pool', cs)) :
    ∀ c ∈ cs, ∃ cqe ∈ cqs, ∃ p pool₀ pool₁, pendingOps.lookup cqe.userData = some p ∧
      c.1 = ⟨cqe.userData⟩ ∧ p.complete cqe pool₀ = some ((c.2.1, c.2.2), pool₁) := by
  induction cqs generalizing pendingOps pool cs with
  | nil =>
    cases h
    intro c hc
    cases hc
  | cons cqe cqes ih =>
    rw [reap] at h
    split at h
    · rename_i p hp
      split at h
      · rename_i op res pool₁ hc
        obtain ⟨⟨po₂, pool₂, cs₂⟩, hr, heq⟩ := Option.map_eq_some_iff.mp h
        cases heq
        intro c hmem
        rcases List.mem_cons.mp hmem with rfl | hmem
        · exact ⟨cqe, List.mem_cons_self, p, pool, pool₁, hp, rfl, hc⟩
        · -- the rest of the loop ran with the op of this CQE erased
          obtain ⟨cqe', hcqe', p', pool₀, pool₁', hp', hid, hc'⟩ := ih hr c hmem
          exact ⟨cqe', List.mem_cons_of_mem _ hcqe', p', pool₀, pool₁',
            lookup_of_lookup_erase hp', hid, hc'⟩
      · cases h
    · intro c hmem
      obtain ⟨cqe', hcqe', rest⟩ := ih h c hmem
      exact ⟨cqe', List.mem_cons_of_mem _ hcqe', rest⟩

/-- The loop keeps the invariant of the pool: it only recycles buffers. -/
theorem PoolInv.reap (hpool : PoolInv pool)
    (h : reap pendingOps pool cqs = some (pendingOps', pool', cs)) : PoolInv pool' := by
  induction cqs generalizing pendingOps pool cs with
  | nil =>
    cases h
    exact hpool
  | cons cqe cqes ih =>
    rw [reap] at h
    split at h
    · split at h
      · rename_i op res pool₁ hc
        obtain ⟨⟨po₂, pool₂, cs₂⟩, hr, heq⟩ := Option.map_eq_some_iff.mp h
        cases heq
        exact ih (hpool.complete hc) hr
      · cases h
    · exact ih hpool h

end reap

/-! ## Along runs -/

namespace UringRun

variable {s s' : UringRun A}

/-- Along a run from a pool of the invariant: the pool keeps it, every op
    pending is as `submit` builds it from such a pool, and every completion
    reported returns what the kernel posted for its token. -/
structure Zeroed (s : UringRun A) : Prop where
  pool : PoolInv s.ring.pool
  pending : ∀ u p, s.ring.pendingOps.lookup u = some p → p.Zeroed
  reported : ∀ c ∈ s.reported, ∃ cqe ∈ s.posted, cqe.userData = c.1.id ∧ ReadFrom cqe c.2.1 c.2.2

theorem zeroed_start {pool : List (Vec UInt8)} (hpool : PoolInv pool) (counter : Nat) :
    Zeroed (start counter pool : UringRun A) where
  pool := hpool
  pending _ _ h := by simp [start, Uring.new] at h
  reported _ h := absurd h List.not_mem_nil

theorem pool_submit (op : Op A) (accepted : Bool) :
    (s.submit op accepted).ring.pool = (prepare s.ring.tokenCounter op s.ring.pool).2.2 := by
  cases accepted <;> rfl

theorem Zeroed.submit (hz : Zeroed s) (op : Op A) (accepted : Bool) :
    Zeroed (s.submit op accepted) := by
  refine ⟨?_, ?_, hz.reported⟩
  · rw [pool_submit]
    exact hz.pool.prepare _ op
  · intro u p hp
    cases accepted with
    | false => exact hz.pending u p hp
    | true =>
      -- the op pushed is pending under the counter, built from the pool
      rw [pendingOps_submit_true] at hp
      by_cases hu : u = s.ring.tokenCounter
      · subst hu
        rw [AList.lookup_insert] at hp
        cases hp
        exact zeroed_prepare hz.pool _ op
      · rw [AList.lookup_insert_ne hu] at hp
        exact hz.pending u p hp

theorem Zeroed.post (hz : Zeroed s) (sqe : Sqe) (cqe : Cqe A) : Zeroed (s.post sqe cqe) where
  pool := hz.pool
  pending := hz.pending
  reported c hc := by
    obtain ⟨cqe', hcqe', hid, hr⟩ := hz.reported c hc
    exact ⟨cqe', by simp [hcqe'], hid, hr⟩

/-- `poll_complete` returns, for each CQE of the queue, the completion of the
    op pending under its `user_data`, which the bookkeeping puts among what
    the kernel posted. -/
theorem Zeroed.pollComplete (hi : Inv s) (hz : Zeroed s) (h : s.pollComplete = some s') :
    Zeroed s' := by
  obtain ⟨⟨ring, cs⟩, hp, rfl⟩ := Option.map_eq_some_iff.mp h
  obtain ⟨⟨po', pool', cs'⟩, hreap, heq⟩ := Option.map_eq_some_iff.mp hp
  cases heq
  refine ⟨hz.pool.reap hreap, fun u p hp => hz.pending u p (reap_lookup hreap hp), ?_⟩
  intro c hc
  rcases List.mem_append.mp hc with hc | hc
  · exact hz.reported c hc
  · obtain ⟨cqe, hcqe, p, pool₀, pool₁, hp, hid, hcomp⟩ := reap_completes hreap c hc
    exact ⟨cqe, (hi.cq cqe hcqe).1, by rw [hid], PendingOp.readFrom_complete (hz.pending _ p hp) hcomp⟩

theorem Zeroed.step (hi : Inv s) (hz : Zeroed s) {e : UringEvent A} (h : s.step e = some s') :
    Zeroed s' := by
  cases e with
  | submit op accepted =>
    cases h
    exact hz.submit op accepted
  | complete cqe =>
    rcases step_complete_cases s cqe with hs | ⟨sqe, -, -, -, hs⟩
    · rw [hs] at h
      cases h
      exact hz
    · rw [hs] at h
      cases h
      exact hz.post sqe cqe
  | pollComplete => exact hz.pollComplete hi h

/-- The run lemma: from a state of the bookkeeping and of `Zeroed`, every run
    is defined and keeps both. -/
theorem Zeroed.run (hi : Inv s) (hz : Zeroed s) (events : List (UringEvent A)) :
    ∃ s', s.run events = some s' ∧ Inv s' ∧ Zeroed s' :=
  run_total (fun s => Inv s ∧ Zeroed s)
    (fun s e ⟨hi, hz⟩ => by
      obtain ⟨s', hs', hi'⟩ := hi.step e
      exact ⟨s', hs', hi', hz.step hi hs'⟩)
    ⟨hi, hz⟩ events

/- A read of four bytes, for which the kernel wrote two and reported three,
   returns the two and a zero. -/
example : ((start 1 [] : UringRun Unit).run
    [.submit (.read 3 0 4) true, .complete ⟨1, 3, none, [7, 8]⟩, .pollComplete]).map
      (fun s => s.reported.map fun c => match c.2.2 with
        | .ok (.read _ data) => data.vec.data
        | _ => []) = some [[7, 8, 0]] := by
  decide

end UringRun

end Miniss
