import Miniss.Io.Uring

/-!
# Runs of the io_uring backend

A run of `UringBackend` on its thread, with its kernel ring: `submit` calls,
each push accepted or rejected by the kernel; the kernel completing SQEs it
accepted, in any order, each once, with a result it may post (`Sqe.Fits`); and
`poll_complete` calls. Besides the backend and the ring the run records what
was seen: each token `submit` returned, with its op and whether the push was
accepted, each CQE the kernel posted, and each completion `poll_complete`
returned.

`Inv` is the bookkeeping of every run from a new backend (`inv_start`,
`Inv.step`, `Inv.run`):

* the token ids are distinct;
* every accepted token is in exactly one place: in flight in the kernel,
  posted in the completion queue, or reported (`Inv.perm`);
* what is in flight or posted is pending under its `user_data`, with the op
  submitted, a read buffer the kernel cannot overrun, and for a posted CQE a
  result the op can take;
* what was reported was submitted and accepted, carries its op, and reports
  it from its CQE (`Reports`).

So no `set_len` goes past its buffer, and `uring_exactly_once` follows: every
accepted token is reported once, by the first `poll_complete` after the kernel
posts its CQE, and never twice. A token whose push was rejected is in none of
these places, and is never reported (`rejected_token_lost`).
-/

namespace Miniss

/-- What happens to a backend and its ring: a `submit` call, the kernel
    accepting the push or not; the kernel completing an SQE and posting a CQE;
    a `poll_complete` call. -/
inductive UringEvent (A : Type*) where
  | submit (op : Op A) (accepted : Bool)
  | complete (cqe : Cqe A)
  | pollComplete

/-- A run of the backend: the backend and its ring, with every token `submit`
    returned (its op, and whether the push was accepted), every CQE the kernel
    posted, and every completion `poll_complete` returned, in order. -/
structure UringRun (A : Type*) where
  ring : Uring A
  submitted : List (IoToken × Op A × Bool)
  posted : List (Cqe A)
  reported : List (Completion A)

namespace UringRun

variable {A : Type*}

/-- A new backend, on a thread whose pool is `pool`, with `TOKEN_COUNTER` at
    `counter`. -/
def start (counter : Nat) (pool : List (Vec UInt8)) : UringRun A :=
  ⟨.new counter pool, [], [], []⟩

/-- A `submit` call. -/
def submit (s : UringRun A) (op : Op A) (accepted : Bool) : UringRun A :=
  { s with
    ring := (s.ring.submit op accepted).1
    submitted := s.submitted ++ [((s.ring.submit op accepted).2, op, accepted)] }

/-- The kernel completes the SQE `sqe` and posts `cqe`. -/
def post (s : UringRun A) (sqe : Sqe) (cqe : Cqe A) : UringRun A :=
  { s with ring := s.ring.post sqe cqe, posted := s.posted ++ [cqe] }

/-- A `poll_complete` call; `none` where it is undefined. -/
def pollComplete (s : UringRun A) : Option (UringRun A) :=
  s.ring.pollComplete.map fun (ring, cs) => { s with ring := ring, reported := s.reported ++ cs }

/-- One event. The kernel completes only an SQE in flight, with a result it
    may post for it: any other completion is not the kernel's. -/
def step (s : UringRun A) : UringEvent A → Option (UringRun A)
  | .submit op accepted => some (s.submit op accepted)
  | .complete cqe =>
    match s.ring.inFlight.find? (·.userData == cqe.userData) with
    | some sqe => if sqe.Fits cqe.result then some (s.post sqe cqe) else some s
    | none => some s
  | .pollComplete => s.pollComplete

/-- A run of events. -/
def run (s : UringRun A) (events : List (UringEvent A)) : Option (UringRun A) :=
  events.foldlM step s

@[simp] theorem run_nil (s : UringRun A) : s.run [] = some s := rfl

theorem run_cons (s : UringRun A) (e : UringEvent A) (events : List (UringEvent A)) :
    s.run (e :: events) = (s.step e).bind fun s' => s'.run events := rfl

/-- A completion either is the kernel's, posting for an SQE in flight, or
    changes nothing. -/
theorem step_complete_cases (s : UringRun A) (cqe : Cqe A) :
    s.step (.complete cqe) = some s ∨
      ∃ sqe ∈ s.ring.inFlight, sqe.userData = cqe.userData ∧ sqe.Fits cqe.result ∧
        s.step (.complete cqe) = some (s.post sqe cqe) := by
  rw [step]
  split
  · rename_i sqe hfind
    have hmem := List.mem_of_find?_eq_some hfind
    have hid := List.find?_some hfind
    split_ifs with hfits
    · exact .inr ⟨sqe, hmem, by simpa using hid, hfits, rfl⟩
    · exact .inl rfl
  · exact .inl rfl

/-! ## The bookkeeping -/

/-- The op submitted under `u` is pending as `p`, as `submit` built it. -/
def Pending (s : UringRun A) (u : Nat) (p : PendingOp A) : Prop :=
  (⟨u⟩, p.op, true) ∈ s.submitted ∧ s.ring.pendingOps.lookup u = some p ∧ p.Built

/-- The ids in flight, posted, and reported. -/
def accounted (s : UringRun A) : List Nat :=
  s.ring.inFlight.map Sqe.userData ++ s.ring.cq.map Cqe.userData ++ s.reported.map (·.1.id)

/-- The ids of the tokens whose push was accepted. -/
def acceptedIds (s : UringRun A) : List Nat :=
  (s.submitted.filter (·.2.2)).map (·.1.id)

/-- The bookkeeping of a run. -/
structure Inv (s : UringRun A) : Prop where
  nodup : (s.submitted.map (·.1.id)).Nodup
  lt_counter : ∀ t ∈ s.submitted, t.1.id < s.ring.tokenCounter
  perm : s.accounted.Perm s.acceptedIds
  inFlight : ∀ sqe ∈ s.ring.inFlight, ∃ p, s.Pending sqe.userData p ∧ p.CoveredBy sqe
  cq : ∀ cqe ∈ s.ring.cq, cqe ∈ s.posted ∧ ∃ p, s.Pending cqe.userData p ∧ p.Fits cqe.result
  reported : ∀ c ∈ s.reported, (c.1, c.2.1, true) ∈ s.submitted ∧
    ∃ cqe ∈ s.posted, cqe.userData = c.1.id ∧ Reports c.2.1 cqe.result c.2.2

theorem inv_start (counter : Nat) (pool : List (Vec UInt8)) : Inv (start counter pool : UringRun A) where
  nodup := List.nodup_nil
  lt_counter _ h := absurd h List.not_mem_nil
  perm := List.Perm.refl _
  inFlight _ h := absurd h List.not_mem_nil
  cq _ h := absurd h List.not_mem_nil
  reported _ h := absurd h List.not_mem_nil

variable {s : UringRun A}

theorem Inv.acceptedIds_nodup (h : Inv s) : s.acceptedIds.Nodup :=
  h.nodup.sublist (List.filter_sublist.map _)

theorem Inv.accounted_nodup (h : Inv s) : s.accounted.Nodup :=
  h.perm.nodup_iff.mpr h.acceptedIds_nodup

/-- Every id accounted for is below the counter. -/
theorem Inv.lt_of_mem_accounted (h : Inv s) {u : Nat} (hu : u ∈ s.accounted) :
    u < s.ring.tokenCounter := by
  obtain ⟨t, ht, rfl⟩ := List.mem_map.mp (h.perm.mem_iff.mp hu)
  exact h.lt_counter t (List.mem_of_mem_filter ht)

theorem mem_accounted_of_inFlight {u : Nat} (hu : u ∈ s.ring.inFlight.map Sqe.userData) :
    u ∈ s.accounted :=
  List.mem_append_left _ (List.mem_append_left _ hu)

theorem mem_accounted_of_cq {u : Nat} (hu : u ∈ s.ring.cq.map Cqe.userData) : u ∈ s.accounted :=
  List.mem_append_left _ (List.mem_append_right _ hu)

/-- A pending op stays pending while tokens are only added and its entry is
    left as it is. -/
theorem Pending.mono {s' : UringRun A} {u : Nat} {p : PendingOp A} (hp : s.Pending u p)
    (hsub : ∀ t ∈ s.submitted, t ∈ s'.submitted)
    (hlookup : s'.ring.pendingOps.lookup u = s.ring.pendingOps.lookup u) : s'.Pending u p :=
  ⟨hsub _ hp.1, hlookup.trans hp.2.1, hp.2.2⟩

/-- An id added in the middle of what is accounted for, and at the end of the
    accepted ids. -/
theorem perm_insert {I Q R T : List Nat} (c : Nat) (h : (I ++ Q ++ R).Perm T) :
    (I ++ [c] ++ Q ++ R).Perm (T ++ [c]) := by
  have heq : I ++ [c] ++ Q ++ R = I ++ c :: (Q ++ R) := by simp
  rw [heq]
  refine List.perm_middle.trans (((List.perm_cons c).mpr ?_).trans (List.perm_append_singleton c T).symm)
  simpa using h

/-- An id moved from what is in flight to the end of the completion queue. -/
theorem perm_move {I E Q R T : List Nat} (u : Nat) (hI : I.Perm (u :: E))
    (h : (I ++ Q ++ R).Perm T) : (E ++ (Q ++ [u]) ++ R).Perm T := by
  have heq : E ++ (Q ++ [u]) ++ R = E ++ Q ++ u :: R := by simp
  rw [heq]
  exact List.perm_middle.trans (((hI.append_right Q).append_right R).symm.trans h)

/-- The ids of the completion queue moved to the end of what was reported. -/
theorem perm_reap {I Q R T : List Nat} (h : (I ++ Q ++ R).Perm T) :
    (I ++ [] ++ (R ++ Q)).Perm T := by
  rw [List.append_nil]
  exact (List.perm_append_comm.append_left I).trans (by rwa [← List.append_assoc])

/-- What is in flight is not in the completion queue. -/
theorem Inv.not_mem_cq (h : Inv s) {u : Nat} (hu : u ∈ s.ring.inFlight.map Sqe.userData) :
    u ∉ s.ring.cq.map Cqe.userData := fun hq =>
  (List.nodup_append.mp (List.nodup_append.mp h.accounted_nodup).1).2.2 u hu u hq rfl

theorem Inv.cq_nodup (h : Inv s) : (s.ring.cq.map Cqe.userData).Nodup :=
  (List.nodup_append.mp (List.nodup_append.mp h.accounted_nodup).1).2.1

section submit

variable (s : UringRun A) (op : Op A) (accepted : Bool)

@[simp] theorem submitted_submit :
    (s.submit op accepted).submitted = s.submitted ++ [(⟨s.ring.tokenCounter⟩, op, accepted)] := by
  simp [UringRun.submit]

@[simp] theorem posted_submit : (s.submit op accepted).posted = s.posted := rfl

@[simp] theorem reported_submit : (s.submit op accepted).reported = s.reported := rfl

@[simp] theorem tokenCounter_submit :
    (s.submit op accepted).ring.tokenCounter = s.ring.tokenCounter + 1 :=
  Uring.tokenCounter_submit _ _ _

@[simp] theorem cq_submit : (s.submit op accepted).ring.cq = s.ring.cq :=
  Uring.cq_submit _ _ _

theorem accounted_submit_false : (s.submit op false).accounted = s.accounted := rfl

theorem acceptedIds_submit_false : (s.submit op false).acceptedIds = s.acceptedIds := by
  simp [acceptedIds]

theorem lookup_submit_false (u : Nat) :
    (s.submit op false).ring.pendingOps.lookup u = s.ring.pendingOps.lookup u := rfl

theorem inFlight_submit_true : (s.submit op true).ring.inFlight =
    s.ring.inFlight ++ [(prepare s.ring.tokenCounter op s.ring.pool).1] := rfl

theorem pendingOps_submit_true : (s.submit op true).ring.pendingOps =
    s.ring.pendingOps.insert s.ring.tokenCounter (prepare s.ring.tokenCounter op s.ring.pool).2.1 :=
  rfl

theorem accounted_submit_true : (s.submit op true).accounted =
    s.ring.inFlight.map Sqe.userData ++ [s.ring.tokenCounter] ++ s.ring.cq.map Cqe.userData ++
      s.reported.map (·.1.id) := by
  simp [accounted, inFlight_submit_true, prepare_userData]

theorem acceptedIds_submit_true :
    (s.submit op true).acceptedIds = s.acceptedIds ++ [s.ring.tokenCounter] := by
  simp [acceptedIds]

end submit

theorem Inv.submit (h : Inv s) (op : Op A) (accepted : Bool) : Inv (s.submit op accepted) := by
  have hsub : ∀ t ∈ s.submitted, t ∈ (s.submit op accepted).submitted := fun t ht => by
    rw [submitted_submit]
    exact List.mem_append_left _ ht
  -- the new token's id is the counter, above every id drawn before
  have hnodup : ((s.submit op accepted).submitted.map (·.1.id)).Nodup := by
    rw [submitted_submit, List.map_append, List.nodup_append]
    refine ⟨h.nodup, List.nodup_singleton _, ?_⟩
    intro a ha b hb
    obtain ⟨t, ht, rfl⟩ := List.mem_map.mp ha
    rw [List.mem_singleton.mp hb]
    exact (h.lt_counter t ht).ne
  have hlt : ∀ t ∈ (s.submit op accepted).submitted,
      t.1.id < (s.submit op accepted).ring.tokenCounter := by
    intro t ht
    rw [submitted_submit] at ht
    rw [tokenCounter_submit]
    rcases List.mem_append.mp ht with ht | ht
    · exact (h.lt_counter t ht).trans (Nat.lt_succ_self _)
    · rw [List.mem_singleton.mp ht]
      exact Nat.lt_succ_self _
  have hreported : ∀ c ∈ (s.submit op accepted).reported, (c.1, c.2.1, true) ∈
      (s.submit op accepted).submitted ∧ ∃ cqe ∈ (s.submit op accepted).posted,
        cqe.userData = c.1.id ∧ Reports c.2.1 cqe.result c.2.2 := fun c hc =>
    ⟨hsub _ (h.reported c hc).1, (h.reported c hc).2⟩
  cases accepted with
  | false =>
    -- a rejected push leaves the ring's ops and queues as they are
    refine ⟨hnodup, hlt, ?_, ?_, ?_, hreported⟩
    · rw [accounted_submit_false, acceptedIds_submit_false]
      exact h.perm
    · intro sqe hsqe
      obtain ⟨p, hp, hc⟩ := h.inFlight sqe hsqe
      exact ⟨p, hp.mono hsub (lookup_submit_false _ _ _), hc⟩
    · intro cqe hcqe
      obtain ⟨hposted, p, hp, hf⟩ := h.cq cqe hcqe
      exact ⟨hposted, p, hp.mono hsub (lookup_submit_false _ _ _), hf⟩
  | true =>
    -- the new op is pending under a fresh key; every other lookup is kept
    have hkeep : ∀ u ∈ s.accounted, (s.submit op true).ring.pendingOps.lookup u =
        s.ring.pendingOps.lookup u := fun u hu => by
      rw [pendingOps_submit_true]
      exact AList.lookup_insert_ne (h.lt_of_mem_accounted hu).ne
    refine ⟨hnodup, hlt, ?_, ?_, ?_, hreported⟩
    · rw [accounted_submit_true, acceptedIds_submit_true]
      exact perm_insert _ h.perm
    · intro sqe hsqe
      rw [inFlight_submit_true] at hsqe
      rcases List.mem_append.mp hsqe with hsqe | hsqe
      · obtain ⟨p, hp, hc⟩ := h.inFlight sqe hsqe
        exact ⟨p, hp.mono hsub (hkeep _ (mem_accounted_of_inFlight (List.mem_map_of_mem hsqe))), hc⟩
      · rw [List.mem_singleton.mp hsqe, prepare_userData]
        refine ⟨(prepare s.ring.tokenCounter op s.ring.pool).2.1, ⟨?_, ?_, prepare_built _ _ _⟩,
          coveredBy_prepare _ _ _⟩
        · rw [submitted_submit, prepare_op]
          exact List.mem_append_right _ List.mem_cons_self
        · rw [pendingOps_submit_true, AList.lookup_insert]
    · intro cqe hcqe
      obtain ⟨hposted, p, hp, hf⟩ := h.cq cqe hcqe
      exact ⟨hposted, p, hp.mono hsub (hkeep _ (mem_accounted_of_cq (List.mem_map_of_mem hcqe))), hf⟩

/-! ## The kernel posts a CQE -/

section post

variable (s : UringRun A) (sqe : Sqe) (cqe : Cqe A)

@[simp] theorem submitted_post : (s.post sqe cqe).submitted = s.submitted := rfl

@[simp] theorem reported_post : (s.post sqe cqe).reported = s.reported := rfl

@[simp] theorem posted_post : (s.post sqe cqe).posted = s.posted ++ [cqe] := rfl

@[simp] theorem ring_post : (s.post sqe cqe).ring =
    { s.ring with inFlight := s.ring.inFlight.erase sqe, cq := s.ring.cq ++ [cqe] } := rfl

end post

theorem Inv.post (h : Inv s) {sqe : Sqe} {cqe : Cqe A} (hsqe : sqe ∈ s.ring.inFlight)
    (hid : sqe.userData = cqe.userData) (hfits : sqe.Fits cqe.result) : Inv (s.post sqe cqe) := by
  have hposted : ∀ c ∈ s.posted, c ∈ (s.post sqe cqe).posted := fun c hc => by
    rw [posted_post]
    exact List.mem_append_left _ hc
  have hpending : ∀ {u p}, s.Pending u p → (s.post sqe cqe).Pending u p := fun hp =>
    hp.mono (fun _ ht => ht) rfl
  refine ⟨h.nodup, h.lt_counter, ?_, ?_, ?_, ?_⟩
  · -- the id of the SQE moves from the kernel's SQEs to its CQEs
    have hI : (s.ring.inFlight.map Sqe.userData).Perm
        (cqe.userData :: (s.ring.inFlight.erase sqe).map Sqe.userData) := by
      rw [← hid]
      exact (List.perm_cons_erase hsqe).map Sqe.userData
    have hperm := perm_move cqe.userData hI h.perm
    simpa [accounted, acceptedIds] using hperm
  · intro sqe' hsqe'
    obtain ⟨p, hp, hc⟩ := h.inFlight sqe' (List.mem_of_mem_erase hsqe')
    exact ⟨p, hpending hp, hc⟩
  · intro cqe' hcqe'
    rw [ring_post, List.mem_append, List.mem_singleton] at hcqe'
    rcases hcqe' with hcqe' | rfl
    · obtain ⟨hp', p, hp, hf⟩ := h.cq cqe' hcqe'
      exact ⟨hposted _ hp', p, hpending hp, hf⟩
    · obtain ⟨p, hp, hc⟩ := h.inFlight sqe hsqe
      refine ⟨by simp, p, hpending (hid ▸ hp), hc.fits hfits⟩
  · intro c hc
    obtain ⟨hs, cqe', hcqe', hrest⟩ := h.reported c hc
    exact ⟨hs, cqe', hposted _ hcqe', hrest⟩

/-! ## `poll_complete` -/

/-- `poll_complete` is defined, reads the whole completion queue, and reports
    the tokens of its CQEs in their order; the bookkeeping is kept. -/
theorem Inv.pollComplete (h : Inv s) :
    ∃ s', s.pollComplete = some s' ∧ Inv s' ∧ s'.ring.cq = [] ∧
      s'.reported.map (·.1.id) = s.reported.map (·.1.id) ++ s.ring.cq.map Cqe.userData := by
  obtain ⟨po', pool', cs, hreap, hids, hcs, hrest⟩ := @reap_spec _ _ s.ring.pool _ h.cq_nodup
    fun cqe hcqe => by
      obtain ⟨-, p, ⟨-, hlookup, hbuilt⟩, hf⟩ := h.cq cqe hcqe
      exact ⟨p, hlookup, hbuilt, hf⟩
  let s' : UringRun A :=
    { s with
      ring := { s.ring with pendingOps := po', pool := pool', cq := [] }
      reported := s.reported ++ cs }
  have hs' : s.pollComplete = some s' := by
    simp only [UringRun.pollComplete, Uring.pollComplete, hreap, Option.map_some]
    rfl
  refine ⟨s', hs', ⟨h.nodup, h.lt_counter, ?_, ?_, ?_, ?_⟩, rfl, by simp [s', hids]⟩
  · have hperm := perm_reap h.perm
    simpa [s', accounted, acceptedIds, hids] using hperm
  · -- what is in flight has no CQE, so its pending op is not taken out
    intro sqe hsqe
    obtain ⟨p, hp, hc⟩ := h.inFlight sqe hsqe
    have hnot := h.not_mem_cq (List.mem_map_of_mem hsqe)
    exact ⟨p, hp.mono (fun _ ht => ht) (hrest _ hnot), hc⟩
  · intro cqe hcqe
    exact absurd hcqe List.not_mem_nil
  · intro c hc
    rcases List.mem_append.mp hc with hc | hc
    · exact h.reported c hc
    · obtain ⟨cqe, hcqe, p, hlookup, hid, hop, hrep⟩ := hcs c hc
      obtain ⟨hposted, p', ⟨hsub, hlookup', -⟩, -⟩ := h.cq cqe hcqe
      obtain rfl : p' = p := Option.some.inj (hlookup'.symm.trans hlookup)
      obtain ⟨⟨tid⟩, op, res⟩ := c
      simp only at hid hop hrep
      subst hid hop
      exact ⟨hsub, cqe, hposted, rfl, hrep⟩

/-- What `poll_complete` returns, from a state of the bookkeeping: a completion
    for each posted CQE, in order, with the token of its `user_data`, the op
    submitted and accepted under it, and what the CQE reports of that op. -/
theorem Inv.completions (h : Inv s) {ring : Uring A} {cs : List (Completion A)}
    (hp : s.ring.pollComplete = some (ring, cs)) :
    cs.map (·.1.id) = s.ring.cq.map Cqe.userData ∧
      ∀ c ∈ cs, ∃ cqe ∈ s.ring.cq, c.1.id = cqe.userData ∧ (c.1, c.2.1, true) ∈ s.submitted ∧
        Reports c.2.1 cqe.result c.2.2 := by
  obtain ⟨po', pool', cs', hreap, hids, hcs, -⟩ := @reap_spec _ _ s.ring.pool _ h.cq_nodup
    fun cqe hcqe => by
      obtain ⟨-, p, ⟨-, hlookup, hbuilt⟩, hf⟩ := h.cq cqe hcqe
      exact ⟨p, hlookup, hbuilt, hf⟩
  -- `poll_complete` returns what its loop over the queue returned
  have hcs' : cs' = cs := by
    simp only [Uring.pollComplete, hreap, Option.map_some, Option.some.injEq, Prod.mk.injEq] at hp
    exact hp.2
  subst hcs'
  refine ⟨hids, fun c hc => ?_⟩
  obtain ⟨cqe, hcqe, p, hlookup, hid, hop, hrep⟩ := hcs c hc
  obtain ⟨-, p', ⟨hsub, hlookup', -⟩, -⟩ := h.cq cqe hcqe
  obtain rfl : p' = p := Option.some.inj (hlookup'.symm.trans hlookup)
  obtain ⟨⟨tid⟩, op, res⟩ := c
  simp only at hid hop hrep ⊢
  subst hid hop
  exact ⟨cqe, hcqe, rfl, hsub, hrep⟩

/-- `poll_complete` appends its completions to what was reported. -/
theorem pollComplete_of_ring {ring : Uring A} {cs : List (Completion A)}
    (hp : s.ring.pollComplete = some (ring, cs)) :
    s.pollComplete = some { s with ring := ring, reported := s.reported ++ cs } := by
  simp [UringRun.pollComplete, hp]

/-! ## Runs -/

theorem Inv.step (h : Inv s) (e : UringEvent A) : ∃ s', s.step e = some s' ∧ Inv s' := by
  cases e with
  | submit op accepted => exact ⟨_, rfl, h.submit op accepted⟩
  | complete cqe =>
    rcases step_complete_cases s cqe with hs | ⟨sqe, hsqe, hid, hfits, hs⟩
    · exact ⟨s, hs, h⟩
    · exact ⟨_, hs, h.post hsqe hid hfits⟩
  | pollComplete =>
    obtain ⟨s', hs', hinv, -⟩ := h.pollComplete
    exact ⟨s', hs', hinv⟩

/-- The run lemma: every run from a state of the bookkeeping is defined and
    keeps it, by induction on the events. -/
theorem Inv.run (h : Inv s) (events : List (UringEvent A)) :
    ∃ s', s.run events = some s' ∧ Inv s' := by
  induction events generalizing s with
  | nil => exact ⟨s, rfl, h⟩
  | cons e events ih =>
    obtain ⟨s₁, hs₁, h₁⟩ := h.step e
    obtain ⟨s', hs', h'⟩ := ih h₁
    exact ⟨s', by rw [run_cons, hs₁, Option.bind_some, hs'], h'⟩

/-- Tokens are only added to what `submit` returned. -/
theorem submitted_step {s' : UringRun A} {e : UringEvent A} (h : s.step e = some s') :
    ∃ l, s'.submitted = s.submitted ++ l := by
  cases e with
  | submit op accepted =>
    cases h
    exact ⟨_, submitted_submit _ _ _⟩
  | complete cqe =>
    rcases step_complete_cases s cqe with hs | ⟨sqe, -, -, -, hs⟩
    · rw [hs] at h
      cases h
      exact ⟨[], (List.append_nil _).symm⟩
    · rw [hs] at h
      cases h
      exact ⟨[], (List.append_nil _).symm⟩
  | pollComplete =>
    obtain ⟨ring, cs, -, rfl⟩ := Option.map_eq_some_iff.mp h
    exact ⟨[], (List.append_nil _).symm⟩

/-- A completion by the kernel reports nothing. -/
theorem reported_step_complete {s' : UringRun A} {cqe : Cqe A}
    (h : s.step (.complete cqe) = some s') : s'.reported = s.reported := by
  rcases step_complete_cases s cqe with hs | ⟨sqe, -, -, -, hs⟩
  · rw [hs] at h
    cases h
    rfl
  · rw [hs] at h
    cases h
    rfl

theorem submitted_run {s' : UringRun A} {events : List (UringEvent A)}
    (h : s.run events = some s') : ∃ l, s'.submitted = s.submitted ++ l := by
  induction events generalizing s with
  | nil =>
    cases h
    exact ⟨[], (List.append_nil _).symm⟩
  | cons e events ih =>
    rw [run_cons] at h
    obtain ⟨s₁, hs₁, hrun⟩ := Option.bind_eq_some_iff.mp h
    obtain ⟨l₁, hl₁⟩ := submitted_step hs₁
    obtain ⟨l₂, hl₂⟩ := ih hrun
    exact ⟨l₁ ++ l₂, by rw [hl₂, hl₁, List.append_assoc]⟩

/-- A token whose push was rejected is never reported: what is reported was
    accepted, and the token ids are distinct. -/
theorem Inv.not_reported_of_rejected (h : Inv s) {t : IoToken} {op : Op A}
    (ht : (t, op, false) ∈ s.submitted) : ∀ c ∈ s.reported, c.1 ≠ t := by
  intro c hc hct
  have hacc := (h.reported c hc).1
  have heq : (c.1, c.2.1, true) = (t, op, false) :=
    List.inj_on_of_nodup_map h.nodup hacc ht (by simp [hct])
  simp at heq

end UringRun

end Miniss
