import Miniss.Io.Buffer
import Miniss.Io.State

/-!
# The io_uring backend

`src/io/uring.rs`, `UringBackend`, with the operations of `src/io/mod.rs`.
`submit(op)` draws a token from `TOKEN_COUNTER` and uses its id as the
`user_data` of a submission queue entry (SQE) built from the op: a `Read` or a
`ReadFile` takes a buffer of `len` bytes from the thread's pool, a `Write`,
`WriteFile`, `UdpRecv` or `UdpSend` keeps the buffer of the op. The op, with its
buffers, is kept in `pending_ops` under the `user_data` only if the kernel
accepts the push into the submission queue; otherwise the error is printed and
the token returned all the same.

`poll_complete` walks the completion queue. A completion queue entry (CQE)
carries the `user_data` of its SQE and an `i32` result; one whose `user_data`
is pending is taken out of `pending_ops` and turned into a completion, the op
and either an error, for a negative result, or the `CompletionKind` of the op:
the accepted fd, or the bytes read or written. A read sets the length of its
buffer to the bytes read; `Accept` and `UdpRecv` read the address the kernel
wrote, and fail for a family other than IPv4 and IPv6. Buffers that are not
handed out are recycled into the pool.

The kernel's side is part of the model: an SQE tells it the `user_data` and,
for a read, how many bytes it may write (`Sqe`); a CQE carries, besides the
result, what the kernel wrote into the memory of the SQE (`Cqe`). A `set_len`
past the bytes of the buffer is undefined behaviour, `none` here.

* `prepare_op`, `coveredBy_prepare`: what `submit` keeps pending is the op,
  with a read buffer at least as long as the kernel may fill;
* `complete_spec`: a completion carries the op it was made from, and reports
  either an error or the kind of the op with the result in it
  (`CompletionKind.Of`); `complete_isSome`: it is defined for every result that
  fits the read buffer;
* `reap_spec`: the loop of `poll_complete` over CQEs that are all pending
  completes each once, in order.
-/

namespace Miniss

/-- `Op`, with `A` the socket addresses. -/
inductive Op (A : Type*) where
  | accept (fd : Int32)
  | read (fd : Int32) (offset : Nat) (len : Nat)
  | write (fd : Int32) (offset : Nat) (data : Buffer)
  | fsync (fd : Int32)
  | close (fd : Int32)
  | readFile (fd : Int32) (offset : Nat) (len : Nat)
  | writeFile (fd : Int32) (offset : Nat) (data : Buffer)
  | udpRecv (fd : Int32) (buffer : Buffer)
  | udpSend (fd : Int32) (data : Buffer) (addr : A)

/-- `CompletionKind`. -/
inductive CompletionKind (A : Type*) where
  | accept (fd : Int32) (addr : Option A)
  | read (bytesRead : Nat) (data : Buffer)
  | write (bytesWritten : Nat)
  | fsync
  | close
  | readFile (bytesRead : Nat) (data : Buffer)
  | writeFile (bytesWritten : Nat)
  | udpRecv (bytesRead : Nat) (buffer : Buffer) (addr : A)
  | udpSend (bytesWritten : Nat) (data : Buffer)

/-- `io::Error`, as the backend builds it. -/
inductive OsError where
  /-- `io::Error::from_raw_os_error`. -/
  | rawOs (code : Int32)
  /-- `io::Error::new(io::ErrorKind::InvalidData, message)`. -/
  | invalidData (message : String)

/-- `IoError`, as the backend builds it. -/
inductive IoError where
  | io (e : OsError)

/-- The `type Completion` of the backend: the token, the op and its result. -/
abbrev Completion (A : Type*) := IoToken × Op A × Except IoError (CompletionKind A)

/-- `PendingOp`: the op, with the buffers that must live until it completes.
    The address storage of `Accept`, `UdpRecv` and `UdpSend` is what the kernel
    writes, and comes with the CQE. -/
inductive PendingOp (A : Type*) where
  | read (op : Op A) (buf : Buffer)
  | write (op : Op A) (data : Buffer)
  | accept (op : Op A)
  | fsync (op : Op A)
  | close (op : Op A)
  | readFile (op : Op A) (buf : Buffer)
  | writeFile (op : Op A) (data : Buffer)
  | udpRecv (op : Op A) (buffer : Buffer)
  | udpSend (op : Op A) (data : Buffer)

/-- What an SQE tells the kernel, as far as the model needs: the `user_data`,
    and for a read the number of bytes it may write, `len as u32` for `Read`
    and `ReadFile`, the `iov_len` of the `RecvMsg` of `UdpRecv`. -/
structure Sqe where
  userData : Nat
  readLen : Option Nat
  deriving DecidableEq

/-- A CQE: the `user_data` of its SQE and the result, with what the kernel
    wrote into the memory of the SQE, the address (`none` for a family other
    than `AF_INET` and `AF_INET6`) and the bytes read. -/
structure Cqe (A : Type*) where
  userData : Nat
  result : Int32
  addr : Option A
  bytes : List UInt8

variable {A : Type*}

/-- The results the kernel posts for an SQE: an error, or for a read no more
    bytes than it was given, as `read(2)` and `recvmsg(2)` return them. -/
def Sqe.Fits (sqe : Sqe) (r : Int32) : Prop :=
  r < 0 ∨ ∀ n ∈ sqe.readLen, r.toInt.toNat ≤ n

instance (sqe : Sqe) (r : Int32) : Decidable (sqe.Fits r) :=
  inferInstanceAs (Decidable (_ ∨ _))

namespace PendingOp

/-- The op a pending op keeps. -/
def op : PendingOp A → Op A
  | .read op _ | .write op _ | .accept op | .fsync op | .close op | .readFile op _
  | .writeFile op _ | .udpRecv op _ | .udpSend op _ => op

/-- The buffer the kernel reads into. -/
def readBuf : PendingOp A → Option Buffer
  | .read _ buf | .readFile _ buf | .udpRecv _ buf => some buf
  | _ => none

/-- A result the backend can take: an error, or no more bytes than the read
    buffer holds. -/
def Fits (p : PendingOp A) (r : Int32) : Prop :=
  r < 0 ∨ ∀ b ∈ p.readBuf, r.toInt.toNat ≤ b.vec.data.length

/-- The pending op is one `submit` builds: each variant keeps an op of its own
    variant. -/
def Built : PendingOp A → Prop
  | .accept op => ∃ fd, op = .accept fd
  | .read op _ => ∃ fd offset len, op = .read fd offset len
  | .write op _ => ∃ fd offset data, op = .write fd offset data
  | .fsync op => ∃ fd, op = .fsync fd
  | .close op => ∃ fd, op = .close fd
  | .readFile op _ => ∃ fd offset len, op = .readFile fd offset len
  | .writeFile op _ => ∃ fd offset data, op = .writeFile fd offset data
  | .udpRecv op _ => ∃ fd buffer, op = .udpRecv fd buffer
  | .udpSend op _ => ∃ fd data addr, op = .udpSend fd data addr

/-- The SQE tells the kernel of the read buffer, and no more bytes than it
    holds. -/
def CoveredBy (p : PendingOp A) (sqe : Sqe) : Prop :=
  ∀ b ∈ p.readBuf, ∃ n ∈ sqe.readLen, n ≤ b.vec.data.length

/-- A result the kernel posts for an SQE that covers the read buffer fits it. -/
theorem CoveredBy.fits {p : PendingOp A} {sqe : Sqe} {r : Int32} (hc : p.CoveredBy sqe)
    (hr : sqe.Fits r) : p.Fits r := by
  rcases hr with hr | hr
  · exact .inl hr
  · refine .inr fun b hb => ?_
    obtain ⟨n, hn, hle⟩ := hc b hb
    exact (hr n hn).trans hle

end PendingOp

/-- The `match op` of `UringBackend::submit`: the SQE, what is kept pending,
    and the pool after `BufferPool::get`. -/
def prepare (userData : Nat) (op : Op A) (pool : List (Vec UInt8)) :
    Sqe × PendingOp A × List (Vec UInt8) :=
  match op with
  | .accept fd => (⟨userData, none⟩, .accept (.accept fd), pool)
  | .read fd offset len =>
    let (buf, pool) := BufferPool.get len pool
    (⟨userData, some (len % 2 ^ 32)⟩, .read (.read fd offset len) buf, pool)
  | .write fd offset data => (⟨userData, none⟩, .write (.write fd offset data) data, pool)
  | .fsync fd => (⟨userData, none⟩, .fsync (.fsync fd), pool)
  | .close fd => (⟨userData, none⟩, .close (.close fd), pool)
  | .readFile fd offset len =>
    let (buf, pool) := BufferPool.get len pool
    (⟨userData, some (len % 2 ^ 32)⟩, .readFile (.readFile fd offset len) buf, pool)
  | .writeFile fd offset data =>
    (⟨userData, none⟩, .writeFile (.writeFile fd offset data) data, pool)
  | .udpRecv fd buffer =>
    (⟨userData, some buffer.vec.data.length⟩, .udpRecv (.udpRecv fd buffer) buffer, pool)
  | .udpSend fd data addr => (⟨userData, none⟩, .udpSend (.udpSend fd data addr) data, pool)

theorem prepare_op (userData : Nat) (op : Op A) (pool : List (Vec UInt8)) :
    (prepare userData op pool).2.1.op = op := by
  cases op <;> rfl

theorem prepare_built (userData : Nat) (op : Op A) (pool : List (Vec UInt8)) :
    (prepare userData op pool).2.1.Built := by
  cases op with
  | accept fd => exact ⟨fd, rfl⟩
  | read fd offset len => exact ⟨fd, offset, len, rfl⟩
  | write fd offset data => exact ⟨fd, offset, data, rfl⟩
  | fsync fd => exact ⟨fd, rfl⟩
  | close fd => exact ⟨fd, rfl⟩
  | readFile fd offset len => exact ⟨fd, offset, len, rfl⟩
  | writeFile fd offset data => exact ⟨fd, offset, data, rfl⟩
  | udpRecv fd buffer => exact ⟨fd, buffer, rfl⟩
  | udpSend fd data addr => exact ⟨fd, data, addr, rfl⟩

theorem prepare_userData (userData : Nat) (op : Op A) (pool : List (Vec UInt8)) :
    (prepare userData op pool).1.userData = userData := by
  cases op <;> rfl

/-- The SQE covers the read buffer kept pending. -/
theorem coveredBy_prepare (userData : Nat) (op : Op A) (pool : List (Vec UInt8)) :
    (prepare userData op pool).2.1.CoveredBy (prepare userData op pool).1 := by
  intro b hb
  cases op with
  | read fd offset len | readFile fd offset len =>
    simp only [prepare, PendingOp.readBuf, Option.mem_def, Option.some.injEq] at hb
    refine ⟨len % 2 ^ 32, rfl, ?_⟩
    rw [← hb, length_get]
    exact Nat.mod_le _ _
  | udpRecv fd buffer =>
    simp only [prepare, PendingOp.readBuf, Option.mem_def, Option.some.injEq] at hb
    exact ⟨_, rfl, hb ▸ le_rfl⟩
  | accept | write | fsync | close | writeFile | udpSend => simp [prepare, PendingOp.readBuf] at hb

/-! ## Completions -/

/-- The error of a negative result, `io::Error::from_raw_os_error(-result)`. -/
def osError (r : Int32) : Except IoError (CompletionKind A) :=
  .error (.io (.rawOs (-r)))

/-- The error for an address of another family. -/
def unsupportedFamily : Except IoError (CompletionKind A) :=
  .error (.io (.invalidData "Unsupported address family"))

/-- A read buffer after the kernel wrote into it, then `set_len(bytes_read)`:
    `none` past the bytes the buffer holds. -/
def Buffer.readInto (buf : Buffer) (bytesRead : Nat) (bytes : List UInt8) : Option Buffer :=
  if bytesRead ≤ buf.vec.data.length then some (Buffer.setLen ⟨buf.vec.overwrite bytes⟩ bytesRead)
  else none

theorem Buffer.length_readInto {buf b : Buffer} {n : Nat} {bytes : List UInt8}
    (h : buf.readInto n bytes = some b) : b.vec.data.length = n := by
  unfold Buffer.readInto at h
  split_ifs at h with hn
  cases h
  simp [Buffer.setLen, hn]

/-- `PendingOp::Accept`: the fd accepted, with the address the kernel wrote. -/
def completeAccept (cqe : Cqe A) : Except IoError (CompletionKind A) :=
  if cqe.result < 0 then osError cqe.result
  else
    match cqe.addr with
    | some sa => .ok (.accept cqe.result (some sa))
    | none => unsupportedFamily

/-- `PendingOp::Read` and `PendingOp::ReadFile`, with `mk` the kind: on an
    error the buffer is recycled, else it is cut to the bytes read. -/
def completeRead (mk : Nat → Buffer → CompletionKind A) (op : Op A) (buf : Buffer) (cqe : Cqe A)
    (pool : List (Vec UInt8)) : Option ((Op A × Except IoError (CompletionKind A)) × List (Vec UInt8)) :=
  if cqe.result < 0 then some ((op, osError cqe.result), buf.recycle pool)
  else
    (buf.readInto cqe.result.toInt.toNat cqe.bytes).map fun buf =>
      ((op, .ok (mk cqe.result.toInt.toNat buf)), pool)

/-- `PendingOp::Write` and `PendingOp::WriteFile`, with `mk` the kind: the data
    is recycled, then the bytes written or the error reported. -/
def completeWrite (mk : Nat → CompletionKind A) (op : Op A) (data : Buffer) (cqe : Cqe A)
    (pool : List (Vec UInt8)) : (Op A × Except IoError (CompletionKind A)) × List (Vec UInt8) :=
  let pool := data.recycle pool
  if cqe.result < 0 then ((op, osError cqe.result), pool)
  else ((op, .ok (mk cqe.result.toInt.toNat)), pool)

/-- `PendingOp::Fsync` and `PendingOp::Close`, with `kind` the kind. -/
def completeUnit (kind : CompletionKind A) (cqe : Cqe A) : Except IoError (CompletionKind A) :=
  if cqe.result < 0 then osError cqe.result else .ok kind

/-- `PendingOp::UdpRecv`: the buffer cut to the bytes read, then the address
    the kernel wrote; on an error the buffer is recycled. -/
def completeUdpRecv (op : Op A) (buffer : Buffer) (cqe : Cqe A) (pool : List (Vec UInt8)) :
    Option ((Op A × Except IoError (CompletionKind A)) × List (Vec UInt8)) :=
  if cqe.result < 0 then some ((op, osError cqe.result), buffer.recycle pool)
  else
    (buffer.readInto cqe.result.toInt.toNat cqe.bytes).map fun buffer =>
      match cqe.addr with
      | some sa => ((op, .ok (.udpRecv cqe.result.toInt.toNat buffer sa)), pool)
      | none => ((op, unsupportedFamily), pool)

/-- `PendingOp::UdpSend`: the data is handed out with the bytes written. -/
def completeUdpSend (data : Buffer) (cqe : Cqe A) : Except IoError (CompletionKind A) :=
  if cqe.result < 0 then osError cqe.result else .ok (.udpSend cqe.result.toInt.toNat data)

/-- The `match pending_op` of `poll_complete`: the op and its result, and the
    pool after; `none` where a `set_len` goes past the buffer. -/
def PendingOp.complete (cqe : Cqe A) (pool : List (Vec UInt8)) :
    PendingOp A → Option ((Op A × Except IoError (CompletionKind A)) × List (Vec UInt8))
  | .accept op => some ((op, completeAccept cqe), pool)
  | .read op buf => completeRead .read op buf cqe pool
  | .write op data => some (completeWrite .write op data cqe pool)
  | .fsync op => some ((op, completeUnit .fsync cqe), pool)
  | .close op => some ((op, completeUnit .close cqe), pool)
  | .readFile op buf => completeRead .readFile op buf cqe pool
  | .writeFile op data => some (completeWrite .writeFile op data cqe pool)
  | .udpRecv op buffer => completeUdpRecv op buffer cqe pool
  | .udpSend op data => some ((op, completeUdpSend data cqe), pool)

/-! ## What a completion reports -/

/-- The ops whose completion reads the address the kernel wrote. -/
def Op.readsAddr : Op A → Bool
  | .accept _ | .udpRecv _ _ => true
  | _ => false

/-- The kind of a completion is that of its op, with the result `r` in it:
    the fd accepted, the bytes written, or the bytes read in a buffer of as
    many bytes. -/
def CompletionKind.Of (r : Int32) : Op A → CompletionKind A → Prop
  | .accept _, .accept fd _ => fd = r
  | .read .., .read n data => n = r.toInt.toNat ∧ data.vec.data.length = n
  | .write .., .write n => n = r.toInt.toNat
  | .fsync _, .fsync => True
  | .close _, .close => True
  | .readFile .., .readFile n data => n = r.toInt.toNat ∧ data.vec.data.length = n
  | .writeFile .., .writeFile n => n = r.toInt.toNat
  | .udpRecv .., .udpRecv n buffer _ => n = r.toInt.toNat ∧ buffer.vec.data.length = n
  | .udpSend .., .udpSend n _ => n = r.toInt.toNat
  | _, _ => False

/-- What a completion reports of its op from the result `r` of its CQE: the
    OS error of a negative result, the error of an address of another family
    for an op that reads one, or for `r ≥ 0` the kind of the op with `r` in it. -/
def Reports (op : Op A) (r : Int32) : Except IoError (CompletionKind A) → Prop
  | .error e => r < 0 ∧ e = .io (.rawOs (-r)) ∨
      0 ≤ r ∧ e = .io (.invalidData "Unsupported address family") ∧ op.readsAddr = true
  | .ok k => 0 ≤ r ∧ k.Of r op

section Reports

variable {op : Op A} {cqe : Cqe A}

theorem reports_osError (h : cqe.result < 0) : Reports op cqe.result (osError cqe.result) :=
  .inl ⟨h, rfl⟩

theorem reports_unsupportedFamily (h : ¬cqe.result < 0) (hop : op.readsAddr = true) :
    Reports op cqe.result unsupportedFamily :=
  .inr ⟨Int32.not_lt.mp h, rfl, hop⟩

theorem reports_ok {k : CompletionKind A} (h : ¬cqe.result < 0) (hk : k.Of cqe.result op) :
    Reports op cqe.result (.ok k) :=
  ⟨Int32.not_lt.mp h, hk⟩

end Reports

theorem reports_completeAccept (fd : Int32) (cqe : Cqe A) :
    Reports (.accept fd) cqe.result (completeAccept cqe) := by
  unfold completeAccept
  split_ifs with hr
  · exact reports_osError hr
  · split
    · exact reports_ok hr rfl
    · exact reports_unsupportedFamily hr rfl

/-- A read reports the bytes read in a buffer of as many bytes. -/
theorem completeRead_spec {mk : Nat → Buffer → CompletionKind A} {op op' : Op A} {buf : Buffer}
    {cqe : Cqe A} {pool pool' : List (Vec UInt8)} {res : Except IoError (CompletionKind A)}
    (hmk : ∀ b : Buffer, b.vec.data.length = cqe.result.toInt.toNat →
      (mk cqe.result.toInt.toNat b).Of cqe.result op)
    (h : completeRead mk op buf cqe pool = some ((op', res), pool')) :
    op' = op ∧ Reports op cqe.result res := by
  unfold completeRead at h
  split_ifs at h with hr
  · cases h
    exact ⟨rfl, reports_osError hr⟩
  · obtain ⟨b, hb, hres⟩ := Option.map_eq_some_iff.mp h
    cases hres
    exact ⟨rfl, reports_ok hr (hmk b (Buffer.length_readInto hb))⟩

theorem completeWrite_spec {mk : Nat → CompletionKind A} {op op' : Op A} {data : Buffer}
    {cqe : Cqe A} {pool pool' : List (Vec UInt8)} {res : Except IoError (CompletionKind A)}
    (hmk : (mk cqe.result.toInt.toNat).Of cqe.result op)
    (h : completeWrite mk op data cqe pool = ((op', res), pool')) :
    op' = op ∧ Reports op cqe.result res := by
  unfold completeWrite at h
  split_ifs at h with hr
  · cases h
    exact ⟨rfl, reports_osError hr⟩
  · cases h
    exact ⟨rfl, reports_ok hr hmk⟩

theorem reports_completeUnit {op : Op A} {kind : CompletionKind A} (cqe : Cqe A)
    (hk : kind.Of cqe.result op) : Reports op cqe.result (completeUnit kind cqe) := by
  unfold completeUnit
  split_ifs with hr
  · exact reports_osError hr
  · exact reports_ok hr hk

theorem completeUdpRecv_spec {fd : Int32} {op' : Op A} {buffer buffer₀ : Buffer} {cqe : Cqe A}
    {pool pool' : List (Vec UInt8)} {res : Except IoError (CompletionKind A)}
    (h : completeUdpRecv (.udpRecv fd buffer₀) buffer cqe pool = some ((op', res), pool')) :
    op' = .udpRecv fd buffer₀ ∧ Reports (.udpRecv fd buffer₀) cqe.result res := by
  unfold completeUdpRecv at h
  split_ifs at h with hr
  · cases h
    exact ⟨rfl, reports_osError hr⟩
  · obtain ⟨b, hb, hres⟩ := Option.map_eq_some_iff.mp h
    split at hres
    · cases hres
      exact ⟨rfl, reports_ok hr ⟨rfl, Buffer.length_readInto hb⟩⟩
    · cases hres
      exact ⟨rfl, reports_unsupportedFamily hr rfl⟩

theorem reports_completeUdpSend {fd : Int32} {data₀ : Buffer} {addr : A} (data : Buffer)
    (cqe : Cqe A) : Reports (.udpSend fd data₀ addr) cqe.result (completeUdpSend data cqe) := by
  unfold completeUdpSend
  split_ifs with hr
  · exact reports_osError hr
  · exact reports_ok hr rfl

/-- The spec of the `match pending_op` of `poll_complete`, for a pending op
    that `submit` built: the completion carries the op, and reports it. -/
theorem PendingOp.complete_spec {p : PendingOp A} {cqe : Cqe A} {pool pool' : List (Vec UInt8)}
    {op : Op A} {res : Except IoError (CompletionKind A)} (hp : p.Built)
    (h : p.complete cqe pool = some ((op, res), pool')) :
    op = p.op ∧ Reports p.op cqe.result res := by
  cases p with
  | accept op₀ =>
    obtain ⟨fd, rfl⟩ := hp
    cases h
    exact ⟨rfl, reports_completeAccept fd cqe⟩
  | read op₀ buf | readFile op₀ buf =>
    obtain ⟨fd, offset, len, rfl⟩ := hp
    refine completeRead_spec ?_ h
    intro b hb
    exact ⟨rfl, hb⟩
  | write op₀ data | writeFile op₀ data =>
    obtain ⟨fd, offset, data₀, rfl⟩ := hp
    refine completeWrite_spec ?_ (Option.some.inj h)
    rfl
  | fsync op₀ | close op₀ =>
    obtain ⟨fd, rfl⟩ := hp
    cases h
    exact ⟨rfl, reports_completeUnit cqe trivial⟩
  | udpRecv op₀ buffer =>
    obtain ⟨fd, buffer₀, rfl⟩ := hp
    exact completeUdpRecv_spec h
  | udpSend op₀ data =>
    obtain ⟨fd, data₀, addr, rfl⟩ := hp
    cases h
    exact ⟨rfl, reports_completeUdpSend data cqe⟩

/-- The completion is defined for every result that fits the read buffer. -/
theorem PendingOp.complete_isSome {p : PendingOp A} {cqe : Cqe A} (h : p.Fits cqe.result)
    (pool : List (Vec UInt8)) : (p.complete cqe pool).isSome := by
  -- the one partial step: `set_len` within the buffer
  have hread : ∀ buf, p.readBuf = some buf → ¬cqe.result < 0 →
      (buf.readInto cqe.result.toInt.toNat cqe.bytes).isSome := by
    intro buf hb hr
    rw [Buffer.readInto, if_pos (h.resolve_left hr buf hb)]
    rfl
  cases p with
  | read op buf | readFile op buf =>
    unfold PendingOp.complete completeRead
    split_ifs with hr
    · rfl
    · rw [Option.isSome_map]
      exact hread buf rfl hr
  | udpRecv op buffer =>
    unfold PendingOp.complete completeUdpRecv
    split_ifs with hr
    · rfl
    · rw [Option.isSome_map]
      exact hread buffer rfl hr
  | accept | write | fsync | close | writeFile | udpSend => rfl

/-! ## The completion queue -/

/-- The loop of `poll_complete` over the CQEs: one whose `user_data` is
    pending is taken out of `pending_ops`, completed and pushed, any other is
    skipped; `none` where a completion is undefined. -/
def reap (pendingOps : AList fun _ : Nat => PendingOp A) (pool : List (Vec UInt8)) :
    List (Cqe A) →
      Option ((AList fun _ : Nat => PendingOp A) × List (Vec UInt8) × List (Completion A))
  | [] => some (pendingOps, pool, [])
  | cqe :: cqes =>
    match pendingOps.lookup cqe.userData with
    | some p =>
      match p.complete cqe pool with
      | some ((op, res), pool) =>
        (reap (pendingOps.erase cqe.userData) pool cqes).map fun (pendingOps, pool, cs) =>
          (pendingOps, pool, (⟨cqe.userData⟩, op, res) :: cs)
      | none => none
    | none => reap pendingOps pool cqes

/-- The loop over CQEs that are all pending, under distinct `user_data`, with
    results their ops can take: each is completed once, in order, from its
    pending op, and the other pending ops are left as they are. -/
theorem reap_spec {pendingOps : AList fun _ : Nat => PendingOp A} {pool : List (Vec UInt8)}
    {cqs : List (Cqe A)} (hnodup : (cqs.map Cqe.userData).Nodup)
    (hpending : ∀ cqe ∈ cqs, ∃ p, pendingOps.lookup cqe.userData = some p ∧ p.Built ∧
      p.Fits cqe.result) :
    ∃ pendingOps' pool' cs, reap pendingOps pool cqs = some (pendingOps', pool', cs) ∧
      cs.map (·.1.id) = cqs.map Cqe.userData ∧
      (∀ c ∈ cs, ∃ cqe ∈ cqs, ∃ p, pendingOps.lookup cqe.userData = some p ∧
        c.1.id = cqe.userData ∧ c.2.1 = p.op ∧ Reports p.op cqe.result c.2.2) ∧
      ∀ u, u ∉ cqs.map Cqe.userData → pendingOps'.lookup u = pendingOps.lookup u := by
  induction cqs generalizing pendingOps pool with
  | nil => exact ⟨pendingOps, pool, [], rfl, rfl, by simp, fun _ _ => rfl⟩
  | cons cqe cqes ih =>
    rw [List.map_cons, List.nodup_cons] at hnodup
    obtain ⟨p, hp, hbuilt, hfits⟩ := hpending cqe List.mem_cons_self
    obtain ⟨⟨⟨op, res⟩, pool₁⟩, hc⟩ := Option.isSome_iff_exists.mp (p.complete_isSome hfits pool)
    obtain ⟨rfl, hrep⟩ := p.complete_spec hbuilt hc
    -- the other CQEs keep their pending ops once this one is erased
    have herase : ∀ u ∈ cqes.map Cqe.userData,
        (pendingOps.erase cqe.userData).lookup u = pendingOps.lookup u := fun u hu =>
      AList.lookup_erase_ne (fun he => hnodup.1 (he ▸ hu))
    obtain ⟨po', pool', cs, hreap, hids, hcs, hrest⟩ := @ih (pendingOps.erase cqe.userData) pool₁
      hnodup.2 fun c hc' => by
        rw [herase c.userData (List.mem_map_of_mem hc')]
        exact hpending c (List.mem_cons_of_mem _ hc')
    refine ⟨po', pool', (⟨cqe.userData⟩, p.op, res) :: cs, ?_, by simp [hids], ?_, ?_⟩
    · simp only [reap, hp, hc, hreap, Option.map_some]
    · intro c hmem
      rcases List.mem_cons.mp hmem with rfl | hmem
      · exact ⟨cqe, List.mem_cons_self, p, hp, rfl, rfl, hrep⟩
      · obtain ⟨cqe', hcqe', p', hp', hid, hop, hrep'⟩ := hcs c hmem
        rw [herase _ (List.mem_map_of_mem hcqe')] at hp'
        exact ⟨cqe', List.mem_cons_of_mem _ hcqe', p', hp', hid, hop, hrep'⟩
    · intro u hu
      rw [List.map_cons, List.mem_cons, not_or] at hu
      rw [hrest u hu.2, AList.lookup_erase_ne hu.1]

/-! ## The backend and its ring -/

/-- A `UringBackend` with its ring, on its thread: `TOKEN_COUNTER`, the ops
    pending by `user_data`, the buffer pool of the thread, the SQEs the kernel
    accepted and has not completed, and the CQEs it posted that
    `poll_complete` has not read. -/
structure Uring (A : Type*) where
  tokenCounter : Nat
  pendingOps : AList fun _ : Nat => PendingOp A
  pool : List (Vec UInt8)
  inFlight : List Sqe
  cq : List (Cqe A)

namespace Uring

/-- `UringBackend::new`, on a thread whose pool is `pool`, with
    `TOKEN_COUNTER` at `counter`. -/
def new (counter : Nat) (pool : List (Vec UInt8)) : Uring A :=
  ⟨counter, ∅, pool, [], []⟩

/-- `UringBackend::submit`, the kernel accepting the push of the SQE or not:
    the token either way, the op pending only if the push was accepted. -/
def submit (s : Uring A) (op : Op A) (accepted : Bool) : Uring A × IoToken :=
  let (token, counter) := IoToken.new s.tokenCounter
  let (entry, pendingOp, pool) := prepare token.id op s.pool
  if accepted then
    ({ s with
        tokenCounter := counter, pool := pool,
        pendingOps := s.pendingOps.insert token.id pendingOp,
        inFlight := s.inFlight ++ [entry] }, token)
  else ({ s with tokenCounter := counter, pool := pool }, token)

/-- The kernel completes an SQE it accepted, and posts the CQE. -/
def post (s : Uring A) (sqe : Sqe) (cqe : Cqe A) : Uring A :=
  { s with inFlight := s.inFlight.erase sqe, cq := s.cq ++ [cqe] }

/-- `UringBackend::poll_complete`: the completion queue read through, and the
    completions in its order (`Poll::Pending` for none); `none` where a
    completion is undefined. -/
def pollComplete (s : Uring A) : Option (Uring A × List (Completion A)) :=
  (reap s.pendingOps s.pool s.cq).map fun (pendingOps, pool, cs) =>
    ({ s with pendingOps := pendingOps, pool := pool, cq := [] }, cs)

variable (s : Uring A) (op : Op A)

theorem submit_true : s.submit op true =
    ({ s with
        tokenCounter := s.tokenCounter + 1, pool := (prepare s.tokenCounter op s.pool).2.2,
        pendingOps := s.pendingOps.insert s.tokenCounter (prepare s.tokenCounter op s.pool).2.1,
        inFlight := s.inFlight ++ [(prepare s.tokenCounter op s.pool).1] }, ⟨s.tokenCounter⟩) :=
  rfl

@[simp] theorem submit_snd (accepted : Bool) : (s.submit op accepted).2 = ⟨s.tokenCounter⟩ := by
  cases accepted <;> rfl

@[simp] theorem tokenCounter_submit (accepted : Bool) :
    (s.submit op accepted).1.tokenCounter = s.tokenCounter + 1 := by
  cases accepted <;> rfl

@[simp] theorem cq_submit (accepted : Bool) : (s.submit op accepted).1.cq = s.cq := by
  cases accepted <;> rfl

theorem submit_false : s.submit op false =
    ({ s with tokenCounter := s.tokenCounter + 1, pool := (prepare s.tokenCounter op s.pool).2.2 },
      ⟨s.tokenCounter⟩) :=
  rfl

end Uring

end Miniss
