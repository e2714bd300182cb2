import Miniss.Io.Path

/-!
# The I/O calls

`src/net.rs` and `src/fs.rs`: each I/O call builds an op, submits it to the
backend of the thread, awaits the `IoFuture` of the token, and matches what the
future returns. A completion of the op's own kind gives the call's value; one
of another kind gives `io::Error::new(InvalidData, "Unexpected completion
kind")`; an error of the backend is converted to an `io::Error` (`e.into()`).
`accept`, `write`, `read_at`, `write_at` and `sync_all` do no more than this
(`awaitKind`); `AsyncTcpStream::read` and `AsyncUdpSocket::recv_from` also
slice the buffer of the completion, which panics past its bytes (`none` here).
`AsyncTcpStream::write_all` writes until the whole buffer is written, retrying
a write interrupted by a signal.

* `io_calls_expected`: for every result that reports the op a call submitted
  (on the io_uring path every result an `IoFuture` returns does,
  `IoPath.Inv.reported_of_mem`), the call returns the value of the completion,
  or the backend's error; never the error of an unexpected kind, and the reads
  never panic;
* `write_all_writes_buffer`: whatever each write returns, every write of
  `write_all` submits the bytes not yet written; it returns `Ok` only once the
  bytes the writes took, in order, are the whole buffer, and an error only
  after a write wrote nothing or failed other than by an interruption.

`AsyncUdpSocket::send_to` writes with a blocking `send_to` of the standard
library, past the backend, and is not modelled.
-/

namespace Miniss

namespace Net

/-- `io::ErrorKind`, as far as the calls tell kinds apart. -/
inductive ErrorKind where
  | invalidData
  | writeZero
  | interrupted
  | other
  deriving DecidableEq, Repr

/-- `io::Error`: one from an OS error code, or one made by `io::Error::new`. -/
inductive Error where
  | os (code : Int32)
  | new (kind : ErrorKind) (message : String)
  deriving DecidableEq, Repr

/-- `EINTR`, the code of a call interrupted by a signal. -/
def eintr : Int32 := 4

/-- `io::Error::kind`: `Interrupted` for `EINTR`. -/
def Error.kind : Error → ErrorKind
  | .os code => if code = eintr then .interrupted else .other
  | .new kind _ => kind

/-- `impl From<IoError> for io::Error`. -/
def Error.ofIoError : IoError → Error
  | .io (.rawOs code) => .os code
  | .io (.invalidData message) => .new .invalidData message

/-- The error of a completion of another kind than the op's. -/
def unexpected : Error := .new .invalidData "Unexpected completion kind"

variable {A β : Type*}

/-- The `match future.await` of an I/O call: the value `extract` makes of a
    completion of the call's kind, `message` for a completion of another kind,
    and the backend's error converted. -/
def awaitKind (extract : CompletionKind A → Option β) (message : String) :
    IoResult A → Except Error β
  | .ok kind =>
    match extract kind with
    | some b => .ok b
    | none => .error (.new .invalidData message)
  | .error e => .error (.ofIoError e)

/-- A call whose `extract` takes every completion kind of its op gets, from a
    result that reports the op, the value of the completion or the backend's
    error. -/
theorem awaitKind_of_reports (extract : CompletionKind A → Option β) (message : String)
    {op : Op A} {r : Int32} {res : IoResult A} (hext : ∀ k, k.Of r op → (extract k).isSome)
    (hres : Reports op r res) :
    (∃ k b, res = .ok k ∧ k.Of r op ∧ extract k = some b ∧ awaitKind extract message res = .ok b) ∨
      ∃ e, res = .error e ∧ awaitKind extract message res = .error (.ofIoError e) := by
  cases res with
  | ok k =>
    obtain ⟨b, hb⟩ := Option.isSome_iff_exists.mp (hext k hres.2)
    exact .inl ⟨k, b, rfl, hres.2, hb, by rw [awaitKind, hb]⟩
  | error e => exact .inr ⟨e, rfl, rfl⟩

/-! ## The calls -/

/-- The value `accept` makes of `CompletionKind::Accept { fd, addr }`. -/
def ofAccept : CompletionKind A → Option (Int32 × Option A)
  | .accept fd addr => some (fd, addr)
  | _ => none

/-- `AsyncTcpListener::accept`: the fd and the address of the connection. -/
def accept : IoResult A → Except Error (Int32 × Option A) :=
  awaitKind ofAccept "Unexpected completion kind"

/-- The op of `AsyncTcpStream::read`: a buffer of `BUFFER_SIZE` bytes is taken
    from the pool for its capacity, the length of the read, and dropped. -/
def readOp (fd : Int32) (pool : List (Vec UInt8)) : Op A × List (Vec UInt8) :=
  let (buffer, pool) := BufferPool.get bufferSize pool
  (.read fd 0 buffer.vec.capacity, pool)

/-- `AsyncTcpStream::read`: a new zeroed buffer of `bytes_read` bytes, with the
    first `bytes_read` bytes of the data copied in; `none` where that slice of
    the data panics. -/
def read : IoResult A → Option (Except Error (Nat × Buffer))
  | .ok (.read bytesRead data) =>
    if bytesRead ≤ data.vec.data.length then
      some (.ok (bytesRead, (Buffer.newZeroed bytesRead).copyFromSlice (data.vec.data.take bytesRead)))
    else none
  | .ok _ => some (.error unexpected)
  | .error e => some (.error (.ofIoError e))

/-- `AsyncTcpStream::write`: the buffer of the write is a copy of the bytes. -/
def writeOp (fd : Int32) (buf : List UInt8) : Op A := .write fd 0 (Buffer.fromSlice buf)

/-- The value `write` makes of `CompletionKind::Write { bytes_written }`. -/
def ofWrite : CompletionKind A → Option Nat
  | .write n => some n
  | _ => none

/-- What `AsyncTcpStream::write` returns: the bytes written. -/
def write : IoResult A → Except Error Nat :=
  awaitKind ofWrite "Unexpected completion kind"

/-- The op of `AsyncUdpSocket::recv_from`: a buffer of the caller's length from
    the pool. -/
def recvFromOp (fd : Int32) (len : Nat) (pool : List (Vec UInt8)) : Op A × List (Vec UInt8) :=
  let (buffer, pool) := BufferPool.get len pool
  (.udpRecv fd buffer, pool)

/-- `AsyncUdpSocket::recv_from`, with the caller's buffer `buf` and the pool of
    the thread: the result, the caller's buffer after, and the pool after. The
    first `min(bytes_read, buf.len())` bytes are copied, and the buffer of the
    completion is recycled; `none` where its slice panics. -/
def recvFrom (buf : List UInt8) (pool : List (Vec UInt8)) :
    IoResult A → Option (Except Error (Nat × A) × List UInt8 × List (Vec UInt8))
  | .ok (.udpRecv bytesRead buffer addr) =>
    let bytesToCopy := min bytesRead buf.length
    if bytesToCopy ≤ buffer.vec.data.length then
      some (.ok (bytesRead, addr), buffer.vec.data.take bytesToCopy ++ buf.drop bytesToCopy,
        buffer.recycle pool)
    else none
  | .ok _ => some (.error (.new .invalidData "Unexpected completion kind for UdpRecv"), buf, pool)
  | .error e => some (.error (.ofIoError e), buf, pool)

/-- The value `read_at` makes of `CompletionKind::ReadFile { bytes_read, data }`. -/
def ofReadFile : CompletionKind A → Option (Nat × Buffer)
  | .readFile n data => some (n, data)
  | _ => none

/-- `AsyncFile::read_at`: the bytes read and the buffer of the completion. -/
def readAt : IoResult A → Except Error (Nat × Buffer) :=
  awaitKind ofReadFile "Unexpected completion kind"

/-- The op of `AsyncFile::write_at`: a buffer of the slice's length from the
    pool, with the slice copied in. -/
def writeAtOp (fd : Int32) (offset : Nat) (buf : List UInt8) (pool : List (Vec UInt8)) :
    Op A × List (Vec UInt8) :=
  let (buffer, pool) := BufferPool.get buf.length pool
  (.writeFile fd offset (buffer.copyFromSlice buf), pool)

/-- The value `write_at` makes of `CompletionKind::WriteFile { bytes_written }`. -/
def ofWriteFile : CompletionKind A → Option Nat
  | .writeFile n => some n
  | _ => none

/-- What `AsyncFile::write_at` returns: the bytes written. -/
def writeAt : IoResult A → Except Error Nat :=
  awaitKind ofWriteFile "Unexpected completion kind"

/-- The value `sync_all` makes of `CompletionKind::Fsync`. -/
def ofFsync : CompletionKind A → Option Unit
  | .fsync => some ()
  | _ => none

/-- What `AsyncFile::sync_all` returns. -/
def syncAll : IoResult A → Except Error Unit :=
  awaitKind ofFsync "Unexpected completion kind"

/-! ## The calls on the kinds of their ops

Each call, on a result that reports the op it submitted, returns the value of
the completion of the op's kind, or the backend's error. -/

section Calls

variable {r : Int32} {res : IoResult A}

theorem accept_of_reports {fd : Int32} (h : Reports (.accept fd) r res) :
    (∃ addr, accept res = .ok (r, addr)) ∨ ∃ e, res = .error e ∧ accept res = .error (.ofIoError e) := by
  rcases awaitKind_of_reports ofAccept "Unexpected completion kind"
      (fun k hk => by cases k <;> simp_all [CompletionKind.Of, ofAccept]) h with
    ⟨k, b, -, hk, hb, hres⟩ | ⟨e, he, hres⟩
  · cases k <;> simp only [CompletionKind.Of] at hk
    rename_i fd' addr
    simp only [ofAccept, Option.some.injEq] at hb
    subst hk hb
    exact .inl ⟨addr, hres⟩
  · exact .inr ⟨e, he, hres⟩

/-- `read` slices the data at its own length, so it never panics. -/
theorem read_of_reports {fd : Int32} {offset len : Nat} (h : Reports (.read fd offset len) r res) :
    (∃ data b, res = .ok (.read r.toInt.toNat data) ∧ read res = some (.ok (r.toInt.toNat, b)) ∧
      b.vec.data = data.vec.data) ∨ ∃ e, res = .error e ∧ read res = some (.error (.ofIoError e)) := by
  cases res with
  | error e => exact .inr ⟨e, rfl, rfl⟩
  | ok k =>
    cases k <;> simp only [Reports, CompletionKind.Of, and_false] at h
    rename_i n data
    obtain ⟨-, rfl, hlen⟩ := h
    refine .inl ⟨data, (Buffer.newZeroed r.toInt.toNat).copyFromSlice (data.vec.data.take r.toInt.toNat),
      rfl, ?_, ?_⟩
    · rw [read, if_pos hlen.ge]
    · simp [Buffer.copyFromSlice, ← hlen]

theorem write_of_reports {fd : Int32} {offset : Nat} {data : Buffer}
    (h : Reports (.write fd offset data) r res) :
    write res = .ok r.toInt.toNat ∨ ∃ e, res = .error e ∧ write res = .error (.ofIoError e) := by
  rcases awaitKind_of_reports ofWrite "Unexpected completion kind"
      (fun k hk => by cases k <;> simp_all [CompletionKind.Of, ofWrite]) h with
    ⟨k, b, -, hk, hb, hres⟩ | ⟨e, he, hres⟩
  · cases k <;> simp only [CompletionKind.Of] at hk
    simp only [ofWrite, Option.some.injEq] at hb
    subst hk hb
    exact .inl hres
  · exact .inr ⟨e, he, hres⟩

/-- `recv_from` copies no more than the bytes of the completion's buffer, so
    it never panics. -/
theorem recvFrom_of_reports {fd : Int32} {buffer : Buffer} (buf : List UInt8) (pool : List (Vec UInt8))
    (h : Reports (.udpRecv fd buffer) r res) :
    (∃ received addr, res = .ok (.udpRecv r.toInt.toNat received addr) ∧
      recvFrom buf pool res = some (.ok (r.toInt.toNat, addr),
        received.vec.data.take (min r.toInt.toNat buf.length) ++
          buf.drop (min r.toInt.toNat buf.length), received.recycle pool)) ∨
      ∃ e, res = .error e ∧ recvFrom buf pool res = some (.error (.ofIoError e), buf, pool) := by
  cases res with
  | error e => exact .inr ⟨e, rfl, rfl⟩
  | ok k =>
    cases k <;> simp only [Reports, CompletionKind.Of, and_false] at h
    rename_i n received addr
    obtain ⟨-, rfl, hlen⟩ := h
    refine .inl ⟨received, addr, rfl, ?_⟩
    rw [recvFrom, if_pos (hlen ▸ Nat.min_le_left _ _)]

theorem readAt_of_reports {fd : Int32} {offset len : Nat}
    (h : Reports (.readFile fd offset len) r res) :
    (∃ data, readAt res = .ok (r.toInt.toNat, data) ∧ data.vec.data.length = r.toInt.toNat) ∨
      ∃ e, res = .error e ∧ readAt res = .error (.ofIoError e) := by
  rcases awaitKind_of_reports ofReadFile "Unexpected completion kind"
      (fun k hk => by cases k <;> simp_all [CompletionKind.Of, ofReadFile]) h with
    ⟨k, b, -, hk, hb, hres⟩ | ⟨e, he, hres⟩
  · cases k <;> simp only [CompletionKind.Of] at hk
    rename_i n data
    simp only [ofReadFile, Option.some.injEq] at hb
    obtain ⟨rfl, hlen⟩ := hk
    subst hb
    exact .inl ⟨data, hres, hlen⟩
  · exact .inr ⟨e, he, hres⟩

theorem writeAt_of_reports {fd : Int32} {offset : Nat} {data : Buffer}
    (h : Reports (.writeFile fd offset data) r res) :
    writeAt res = .ok r.toInt.toNat ∨ ∃ e, res = .error e ∧ writeAt res = .error (.ofIoError e) := by
  rcases awaitKind_of_reports ofWriteFile "Unexpected completion kind"
      (fun k hk => by cases k <;> simp_all [CompletionKind.Of, ofWriteFile]) h with
    ⟨k, b, -, hk, hb, hres⟩ | ⟨e, he, hres⟩
  · cases k <;> simp only [CompletionKind.Of] at hk
    simp only [ofWriteFile, Option.some.injEq] at hb
    subst hk hb
    exact .inl hres
  · exact .inr ⟨e, he, hres⟩

theorem syncAll_of_reports {fd : Int32} (h : Reports (.fsync fd) r res) :
    syncAll res = .ok () ∨ ∃ e, res = .error e ∧ syncAll res = .error (.ofIoError e) := by
  rcases awaitKind_of_reports ofFsync "Unexpected completion kind"
      (fun k hk => by cases k <;> simp_all [CompletionKind.Of, ofFsync]) h with
    ⟨k, b, -, hk, hb, hres⟩ | ⟨e, he, hres⟩
  · exact .inl hres
  · exact .inr ⟨e, he, hres⟩

end Calls

/-! ## `write_all` -/

/-- The error `write_all` returns for a write of no bytes. -/
def writeZero : Error := .new .writeZero "failed to write whole buffer"

/-- Where `write_all` is after the writes whose results are given: returned,
    with its result; still writing, with the bytes left, which its next write
    submits; or panicked, at the slice `&buf[n..]` of a write that reported
    more bytes than it was given. -/
inductive WriteAll where
  | returned (result : Except Error Unit)
  | writing (rest : List UInt8)
  | panicked

/-- `AsyncTcpStream::write_all`, over the results `AsyncTcpStream::write`
    returns to it: where it is after them, and each write it made, with the
    bytes it submitted and its result. -/
def writeAll (buf : List UInt8) : List (Except Error Nat) → WriteAll × List (List UInt8 × Except Error Nat)
  | [] => (if buf.isEmpty then .returned (.ok ()) else .writing buf, [])
  | r :: rs =>
    if buf.isEmpty then (.returned (.ok ()), [])
    else
      match r with
      | .ok 0 => (.returned (.error writeZero), [(buf, r)])
      | .ok n =>
        if n ≤ buf.length then
          let x := writeAll (buf.drop n) rs
          (x.1, (buf, r) :: x.2)
        else (.panicked, [(buf, r)])
      | .error e =>
        -- an interrupted write is made again
        if e.kind = .interrupted then
          let x := writeAll buf rs
          (x.1, (buf, r) :: x.2)
        else (.returned (.error e), [(buf, r)])

section writeAll

variable {buf : List UInt8} {rs : List (Except Error Nat)}

theorem writeAll_of_isEmpty (hb : buf.isEmpty) (rs : List (Except Error Nat)) :
    writeAll buf rs = (.returned (.ok ()), []) := by
  cases rs <;> simp [writeAll, hb]

theorem writeAll_ok_zero (hb : ¬buf.isEmpty) :
    writeAll buf (.ok 0 :: rs) = (.returned (.error writeZero), [(buf, .ok 0)]) := by
  simp [writeAll, hb]

theorem writeAll_ok_succ (hb : ¬buf.isEmpty) (n : Nat) :
    writeAll buf (.ok (n + 1) :: rs) =
      if n + 1 ≤ buf.length then
        ((writeAll (buf.drop (n + 1)) rs).1, (buf, .ok (n + 1)) :: (writeAll (buf.drop (n + 1)) rs).2)
      else (.panicked, [(buf, .ok (n + 1))]) := by
  simp [writeAll, hb]

theorem writeAll_error (hb : ¬buf.isEmpty) (e : Error) :
    writeAll buf (.error e :: rs) =
      if e.kind = .interrupted then ((writeAll buf rs).1, (buf, .error e) :: (writeAll buf rs).2)
      else (.returned (.error e), [(buf, .error e)]) := by
  simp [writeAll, hb]

end writeAll

/-- The bytes the writes took, in order: of each write, as many of the bytes
    it submitted as it reported written. -/
def taken (writes : List (List UInt8 × Except Error Nat)) : List UInt8 :=
  writes.flatMap fun w => match w.2 with
    | .ok n => w.1.take n
    | .error _ => []

@[simp] theorem taken_nil : taken [] = [] := rfl

@[simp] theorem taken_cons (d : List UInt8) (r : Except Error Nat) (ws : List (List UInt8 × Except Error Nat)) :
    taken ((d, r) :: ws) = (match r with | .ok n => d.take n | .error _ => []) ++ taken ws := rfl

/-- What the writes of `write_all` took, given where it is: the whole buffer
    once it returned `Ok`; a prefix of it once it returned an error, which is
    `WriteZero` or an error other than an interruption; with the rest, the
    buffer while it is still writing; and when it panicked, its last write
    reported more bytes than it was given. -/
def WriteAll.Sound (buf : List UInt8) (writes : List (List UInt8 × Except Error Nat)) : WriteAll → Prop
  | .returned (.ok _) => taken writes = buf
  | .returned (.error e) => taken writes <+: buf ∧ (e = writeZero ∨ e.kind ≠ .interrupted)
  | .writing rest => taken writes ++ rest = buf
  | .panicked => ∃ l d n, writes = l ++ [(d, .ok n)] ∧ d.length < n

/-- What a run of `write_all` over the results `results` did: it used them in
    order; each write submitted the bytes not taken by the writes before it;
    and what the writes took is as `WriteAll.Sound` says. -/
structure Writes (buf : List UInt8) (results : List (Except Error Nat)) (w : WriteAll)
    (writes : List (List UInt8 × Except Error Nat)) : Prop where
  results : writes.map Prod.snd <+: results
  submits : ∀ l₁ d r l₂, writes = l₁ ++ (d, r) :: l₂ → taken l₁ ++ d = buf
  sound : w.Sound buf writes

variable {buf buf' : List UInt8} {r : Except Error Nat} {rs : List (Except Error Nat)}
  {w : WriteAll} {ws : List (List UInt8 × Except Error Nat)}

/-- A write that took `pre`, followed by a run of `write_all` on the bytes
    after them. -/
theorem Writes.cons (hpre : taken [(buf, r)] ++ buf' = buf) (h : Writes buf' rs w ws) :
    Writes buf (r :: rs) w ((buf, r) :: ws) where
  results := by
    rw [List.map_cons]
    exact (List.prefix_cons_inj _).mpr h.results
  submits l₁ d r' l₂ hw := by
    cases l₁ with
    | nil =>
      cases hw
      rfl
    | cons p l₁ =>
      simp only [List.cons_append, List.cons.injEq] at hw
      obtain ⟨rfl, hw⟩ := hw
      rw [taken_cons, List.append_assoc, h.submits l₁ d r' l₂ hw]
      simpa using hpre
  sound := by
    have htaken : taken ((buf, r) :: ws) = taken [(buf, r)] ++ taken ws := by simp
    cases w with
    | returned result =>
      cases result with
      | ok u =>
        show taken _ = buf
        rw [htaken, h.sound, hpre]
      | error e =>
        obtain ⟨⟨t, ht⟩, he⟩ := h.sound
        exact ⟨⟨t, by rw [htaken, List.append_assoc, ht, hpre]⟩, he⟩
    | writing rest =>
      show taken _ ++ rest = buf
      rw [htaken, List.append_assoc, h.sound, hpre]
    | panicked =>
      obtain ⟨l, d, n, rfl, hn⟩ := h.sound
      exact ⟨(buf, r) :: l, d, n, rfl, hn⟩

/-- A run of `write_all` that its first write ends. -/
theorem Writes.last (h : w.Sound buf [(buf, r)]) : Writes buf (r :: rs) w [(buf, r)] where
  results := by simp
  submits l₁ d r' l₂ hw := by
    cases l₁ with
    | nil =>
      cases hw
      rfl
    | cons p l₁ => simp at hw
  sound := h

/-- `write_all` of no bytes returns `Ok` at once. -/
theorem writes_of_isEmpty (hb : buf.isEmpty) (rs : List (Except Error Nat)) :
    Writes buf rs (.returned (.ok ())) [] :=
  ⟨List.nil_prefix, fun _ _ _ _ hw => by simp at hw, (List.isEmpty_iff.mp hb).symm⟩

/-- Whatever each write returns, each write of `write_all` submits the bytes
    the writes before it did not take, and the results are used in order;
    `write_all` returns `Ok` only once the bytes the writes took, in order, are
    the whole buffer, and an error only after a write took nothing or failed
    other than by an interruption, the bytes taken being a prefix; while it is
    writing, the bytes taken and the bytes left make the buffer; and it panics
    only at a write that reported more bytes than it was given. -/
theorem write_all_writes_buffer (buf : List UInt8) (results : List (Except Error Nat)) :
    Writes buf results (writeAll buf results).1 (writeAll buf results).2 := by
  induction results generalizing buf with
  | nil =>
    by_cases hb : buf.isEmpty
    · rw [writeAll_of_isEmpty hb]
      exact writes_of_isEmpty hb []
    · -- no result yet: the first write, of the whole buffer, is in flight
      refine ⟨by simp [writeAll], fun _ _ _ _ hw => by simp [writeAll] at hw, ?_⟩
      simp [writeAll, hb, WriteAll.Sound]
  | cons r rs ih =>
    by_cases hb : buf.isEmpty
    · rw [writeAll_of_isEmpty hb]
      exact writes_of_isEmpty hb _
    · rcases r with e | (_ | n)
      · -- an interrupted write is made again with the same bytes
        rw [writeAll_error hb]
        split_ifs with he
        · exact Writes.cons (by simp) (ih buf)
        · exact Writes.last ⟨List.nil_prefix, .inr he⟩
      · rw [writeAll_ok_zero hb]
        exact Writes.last ⟨by simp, .inl rfl⟩
      · rw [writeAll_ok_succ hb]
        split_ifs with hn
        · exact Writes.cons (by simp) (ih (buf.drop (n + 1)))
        · exact Writes.last ⟨[], buf, n + 1, rfl, by omega⟩

end Net

end Miniss
