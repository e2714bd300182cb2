import Miniss.Io.State

/-!
# Runs of the hand-off

On the one thread of a runtime, I/O goes through three kinds of steps
(`IoEvent`): a submission to the backend, which returns a fresh token; a poll of
the `IoFuture` of a token with some waker; and the delivery of a batch of
completions. An `IoRun` keeps, beside the maps, the token counter and a ghost
record: the tokens submitted, the wakers registered by polls that returned
`Pending`, the completions delivered, and the results returned by polls that
returned `Ready`.

Under the backend's contract that no token is completed twice, the invariant
`IoRun.Inv` holds along every run:

* a token completed and not yet taken has its result stored, and only then;
* every result taken was delivered for that token, and each is taken once;
* a token not completed yet has, as its waker, the one its future registered
  last.
-/

namespace Miniss

/-- A step of the I/O of a runtime thread. -/
inductive IoEvent (W R : Type*) where
  | submit
  | poll (token : IoToken) (waker : W)
  | deliver (completions : List (IoToken × R))

/-- The I/O state of a runtime thread, with the token counter and the ghost
    record of its steps. -/
structure IoRun (W R : Type*) where
  state : CpuIoState W R
  tokenCounter : Nat
  submitted : List IoToken
  registered : List (IoToken × W)
  delivered : List (IoToken × R)
  returned : List (IoToken × R)

namespace IoRun

variable {W R : Type*}

/-- A new state, with `TOKEN_COUNTER` at `1`. -/
def start : IoRun W R := ⟨.new, 1, [], [], [], []⟩

/-- One step. -/
def step (s : IoRun W R) : IoEvent W R → IoRun W R
  | .submit =>
    let r := IoToken.new s.tokenCounter
    { s with tokenCounter := r.2, submitted := s.submitted ++ [r.1] }
  | .poll token waker =>
    let r := IoFuture.poll s.state token waker
    { s with
      state := r.2
      registered := if r.1.isNone then s.registered ++ [(token, waker)] else s.registered
      returned := s.returned ++ r.1.toList.map fun result => (token, result) }
  | .deliver completions =>
    { s with state := (s.state.deliver completions).1, delivered := s.delivered ++ completions }

/-- A run of steps. -/
def run (s : IoRun W R) (events : List (IoEvent W R)) : IoRun W R := events.foldl step s

/-- The waker the future of `token` registered last. -/
def lastWaker (s : IoRun W R) (token : IoToken) : Option W := s.registered.reverse.lookup token

/-- The invariant of the hand-off. -/
structure Inv (s : IoRun W R) : Prop where
  stored : ∀ t r, (t, r) ∈ s.delivered → t ∉ s.returned.map Prod.fst →
    s.state.completedIo.lookup t = some r
  not_stored : ∀ t, t ∉ s.delivered.map Prod.fst ∨ t ∈ s.returned.map Prod.fst →
    s.state.completedIo.lookup t = none
  returned_delivered : ∀ p ∈ s.returned, p ∈ s.delivered
  returned_nodup : (s.returned.map Prod.fst).Nodup
  waker_last : ∀ t, t ∉ s.delivered.map Prod.fst → s.state.ioWakers.lookup t = s.lastWaker t

variable {s : IoRun W R}

theorem run_append (events events' : List (IoEvent W R)) :
    s.run (events ++ events') = (s.run events).run events' := by
  simp [run, List.foldl_append]

/-- The deliveries of a run extend those before it. -/
theorem delivered_step (ev : IoEvent W R) : ∃ l, (s.step ev).delivered = s.delivered ++ l := by
  cases ev with
  | submit => exact ⟨[], (List.append_nil _).symm⟩
  | poll token waker => exact ⟨[], (List.append_nil _).symm⟩
  | deliver completions => exact ⟨completions, rfl⟩

theorem delivered_run (events : List (IoEvent W R)) :
    ∃ l, (s.run events).delivered = s.delivered ++ l := by
  induction events using List.reverseRecOn with
  | nil => exact ⟨[], by simp [run]⟩
  | append_singleton events ev ih =>
    obtain ⟨l, hl⟩ := ih
    obtain ⟨l', hl'⟩ := delivered_step (s := s.run events) ev
    refine ⟨l ++ l', ?_⟩
    rw [run_append, show (s.run events).run [ev] = (s.run events).step ev from rfl, hl', hl,
      List.append_assoc]

theorem inv_start : (start : IoRun W R).Inv where
  stored _ _ h := absurd h List.not_mem_nil
  not_stored _ _ := rfl
  returned_delivered _ h := absurd h List.not_mem_nil
  returned_nodup := List.nodup_nil
  waker_last _ _ := rfl

theorem Inv.submit (h : s.Inv) : (s.step .submit).Inv :=
  ⟨h.stored, h.not_stored, h.returned_delivered, h.returned_nodup, h.waker_last⟩

/-- A poll that finds the result takes it: it was delivered for this token, and
    not taken before. -/
theorem Inv.poll_of_lookup_some (h : s.Inv) {token : IoToken} {result : R} (waker : W)
    (hr : s.state.completedIo.lookup token = some result) : (s.step (.poll token waker)).Inv := by
  have hdel : token ∈ s.delivered.map Prod.fst ∧ token ∉ s.returned.map Prod.fst := by
    by_contra hne
    rw [h.not_stored token (by tauto)] at hr
    cases hr
  obtain ⟨⟨t, r⟩, hmem, rfl⟩ := List.mem_map.1 hdel.1
  have hres : r = result := Option.some_inj.1 ((h.stored t r hmem hdel.2).symm.trans hr)
  subst hres
  simp only [step, IoFuture.poll_of_lookup_some hr, Option.isNone_some, Option.toList_some,
    List.map_cons, List.map_nil]
  refine ⟨fun t' r' hd hnr => ?_, fun t' ht' => ?_, fun p hp => ?_, ?_, h.waker_last⟩
  · have hne : t' ≠ t := fun he => hnr (by simp [he])
    rw [AList.lookup_erase_ne hne]
    exact h.stored t' r' hd fun hm => hnr (by simp [hm])
  · by_cases hne : t' = t
    · subst hne
      exact AList.lookup_erase _ _
    · rw [AList.lookup_erase_ne hne]
      exact h.not_stored t' (by simpa [hne] using ht')
  · rcases List.mem_append.1 hp with hp | hp
    · exact h.returned_delivered p hp
    · rw [List.mem_singleton.1 hp]
      exact hmem
  · rw [List.map_append]
    refine List.nodup_append.2 ⟨h.returned_nodup, List.nodup_singleton _, fun a ha b hb => ?_⟩
    rw [List.mem_singleton.1 hb]
    rintro rfl
    exact hdel.2 ha

/-- A poll that finds no result registers its waker, now the last one of its token. -/
theorem Inv.poll_of_lookup_none (h : s.Inv) {token : IoToken} (waker : W)
    (hr : s.state.completedIo.lookup token = none) : (s.step (.poll token waker)).Inv := by
  simp only [step, IoFuture.poll_of_lookup_none hr, Option.isNone_none, if_true, Option.toList_none,
    List.map_nil, List.append_nil]
  refine ⟨h.stored, h.not_stored, h.returned_delivered, h.returned_nodup, fun t ht => ?_⟩
  simp only [lastWaker, List.reverse_append, List.reverse_singleton, List.singleton_append]
  by_cases hne : t = token
  · subst hne
    simp
  · rw [AList.lookup_insert_ne hne, h.waker_last t ht]
    simp [lastWaker, List.lookup_cons, beq_false_of_ne hne]

theorem Inv.poll (h : s.Inv) (token : IoToken) (waker : W) : (s.step (.poll token waker)).Inv := by
  cases hr : s.state.completedIo.lookup token with
  | none => exact h.poll_of_lookup_none waker hr
  | some result => exact h.poll_of_lookup_some waker hr

/-- A delivery of fresh, distinct tokens stores their results and takes out
    their wakers. -/
theorem Inv.deliver (h : s.Inv) {batch : List (IoToken × R)}
    (hfresh : ((s.delivered ++ batch).map Prod.fst).Nodup) : (s.step (.deliver batch)).Inv := by
  rw [List.map_append, List.nodup_append] at hfresh
  obtain ⟨-, hbatch, hdisj⟩ := hfresh
  have hnot : ∀ t, t ∈ s.delivered.map Prod.fst → t ∉ batch.map Prod.fst :=
    fun t ht hb => hdisj t ht t hb rfl
  simp only [step]
  refine ⟨fun t r hd hnr => ?_, fun t ht => ?_, fun p hp => List.mem_append_left _
    (h.returned_delivered p hp), h.returned_nodup, fun t ht => ?_⟩
  · rw [CpuIoState.lookup_deliver_completedIo]
    rcases List.mem_append.1 hd with hd | hd
    · -- Delivered before: the batch does not touch it.
      have hb : t ∉ (batch.reverse).map Prod.fst := by
        rw [List.map_reverse, List.mem_reverse]
        exact hnot t (List.mem_map_of_mem hd)
      rw [lookup_eq_none_of_not_mem hb, Option.none_or]
      exact h.stored t r hd hnr
    · -- Delivered now: its one entry in the batch.
      have hnd : ((batch.reverse).map Prod.fst).Nodup := by
        rw [List.map_reverse]
        exact List.nodup_reverse.2 hbatch
      rw [lookup_of_mem_of_nodup hnd (List.mem_reverse.2 hd), Option.some_or]
  · -- Neither delivered now, nor stored before.
    have hb : t ∉ (batch.reverse).map Prod.fst := by
      rw [List.map_reverse, List.mem_reverse]
      rcases ht with ht | ht
      · exact fun hm => ht (by rw [List.map_append]; exact List.mem_append_right _ hm)
      · obtain ⟨p, hp, rfl⟩ := List.mem_map.1 ht
        exact hnot _ (List.mem_map_of_mem (h.returned_delivered p hp))
    rw [CpuIoState.lookup_deliver_completedIo, lookup_eq_none_of_not_mem hb, Option.none_or]
    refine h.not_stored t (ht.imp (fun ht hm => ht ?_) id)
    rw [List.map_append]
    exact List.mem_append_left _ hm
  · rw [List.map_append, List.mem_append, not_or] at ht
    rw [CpuIoState.lookup_deliver_ioWakers, if_neg ht.2]
    exact h.waker_last t ht.1

/-- The backend's contract on a step: a delivery completes tokens never
    completed before, each once. -/
def Fresh (s : IoRun W R) : IoEvent W R → Prop
  | .deliver batch => ((s.delivered ++ batch).map Prod.fst).Nodup
  | _ => True

theorem Inv.step (h : s.Inv) : ∀ ev : IoEvent W R, s.Fresh ev → (s.step ev).Inv
  | .submit, _ => h.submit
  | .poll token waker, _ => h.poll token waker
  | .deliver _, hfresh => h.deliver hfresh

theorem fresh_of_nodup {ev : IoEvent W R} (h : ((s.step ev).delivered.map Prod.fst).Nodup) :
    s.Fresh ev := by
  cases ev with
  | submit => trivial
  | poll token waker => trivial
  | deliver batch => exact h

/-- Along a run in which no token is completed twice, the invariant holds. -/
theorem Inv.run (h : s.Inv) (events : List (IoEvent W R))
    (hfresh : ((s.run events).delivered.map Prod.fst).Nodup) : (s.run events).Inv := by
  induction events using List.reverseRecOn with
  | nil => exact h
  | append_singleton events ev ih =>
    rw [run_append] at hfresh ⊢
    obtain ⟨l, hl⟩ := delivered_step (s := s.run events) ev
    have hfresh' : ((s.run events).delivered.map Prod.fst).Nodup := by
      rw [show (s.run events).run [ev] = (s.run events).step ev from rfl, hl, List.map_append]
        at hfresh
      exact hfresh.of_append_left
    exact (ih hfresh').step ev (fresh_of_nodup hfresh)

/-- The hand-off on a runtime thread, along every run in which the backend
    completes no token twice: the future of a completed token, polled with any
    waker, returns the result delivered for it unless it has taken it already;
    every result returned was delivered for that token, and each is returned
    once; a delivery wakes, for each token of its batch, the waker the token's
    future registered last. -/
theorem handoff_delivers_once (events : List (IoEvent W R))
    (hfresh : (((start : IoRun W R).run events).delivered.map Prod.fst).Nodup) :
    let s := (start : IoRun W R).run events
    (∀ t r, (t, r) ∈ s.delivered → t ∉ s.returned.map Prod.fst →
      ∀ waker, (IoFuture.poll s.state t waker).1 = some r) ∧
    (∀ p ∈ s.returned, p ∈ s.delivered) ∧ (s.returned.map Prod.fst).Nodup ∧
    (∀ batch : List (IoToken × R), ((s.delivered ++ batch).map Prod.fst).Nodup →
      (s.state.deliver batch).2 = batch.filterMap fun p => s.lastWaker p.1) := by
  intro s
  have h : s.Inv := inv_start.run events hfresh
  refine ⟨fun t r hd hnr waker => ?_, h.returned_delivered, h.returned_nodup, fun batch hb => ?_⟩
  · rw [IoFuture.poll_of_lookup_some (h.stored t r hd hnr)]
  · rw [List.map_append, List.nodup_append] at hb
    rw [CpuIoState.deliver_woken hb.2.1]
    -- The tokens of the batch were not completed before: their wakers are the last registered.
    refine List.filterMap_congr fun p hp => h.waker_last p.1 fun hd => ?_
    exact hb.2.2 p.1 hd p.1 (List.mem_map_of_mem hp) rfl

/-- A future registers the waker `7` for the token `1`, whose completion `42`
    is then delivered. -/
theorem handoff_delivers_once_register_deliver :
    ((((start : IoRun Nat Nat).run [.submit, .poll ⟨1⟩ 7, .deliver [(⟨1⟩, 42)]]).delivered.map
      Prod.fst).Nodup) ∧
    (let s := (start : IoRun Nat Nat).run [.submit, .poll ⟨1⟩ 7, .deliver [(⟨1⟩, 42)]]
    (∀ t r, (t, r) ∈ s.delivered → t ∉ s.returned.map Prod.fst →
      ∀ waker, (IoFuture.poll s.state t waker).1 = some r) ∧
    (∀ p ∈ s.returned, p ∈ s.delivered) ∧ (s.returned.map Prod.fst).Nodup ∧
    (∀ batch : List (IoToken × Nat), ((s.delivered ++ batch).map Prod.fst).Nodup →
      (s.state.deliver batch).2 = batch.filterMap fun p => s.lastWaker p.1)) :=
  ⟨by decide, handoff_delivers_once _ (by decide)⟩

end IoRun

end Miniss
