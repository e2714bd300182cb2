import Miniss.Timer.Operations
import Miniss.Data.Loop
import Miniss.Data.Run

/-!
# Sleeping, timeouts and intervals

`src/timer/sleep.rs`, `src/timer/timeout.rs`, `src/timer/interval.rs`.

The futures read the monotonic clock with `Instant::now()`. The clock here is
a function `clock` of the number of readings made so far on the thread
(`Thread.reads`), so that two readings in one poll may differ, and the
readings of a run are any sequence: any non-decreasing one where a result
assumes `Monotone clock`. `TIMER_COUNTER` is drawn on the same record.

* A `SleepFuture` keeps a `TimerWheel` of its own, made by `new`. A poll
  before its end time schedules the waker of the context on that wheel and
  returns `Pending`; nothing calls `expire` on that wheel.
* `Timeout::poll` polls its future first, then its sleep: along every run of
  polls, whatever the future and the clock, a ready future wins even past the
  deadline, the sleep decides the rest, and the sleep's wheel gathers the
  wakers of the `Pending` polls, none of which it ever wakes
  (`timeout_outcomes`).
* `Interval::tick` loops: at or past the deadline it moves the deadline on by
  the period and returns, else it awaits a sleep of the time left. On a
  monotone clock a poll goes round the loop at most twice (`TickFuture.poll_of_le`),
  each tick returns at a reading at or past its deadline, and the deadlines
  are the start plus whole periods, however late the ticks return
  (`interval_no_drift`).
-/

namespace Miniss

/-- `Poll<T>`. -/
inductive Poll (α : Type*) where
  | ready (val : α)
  | pending
  deriving DecidableEq, Repr

/-- `Poll::is_pending`. -/
def Poll.isPending {α : Type*} : Poll α → Bool
  | .ready _ => false
  | .pending => true

/-- What the futures of a thread read and draw: the number of readings of the
    clock made so far, and `TIMER_COUNTER`. -/
structure Thread where
  reads : Nat
  timerCounter : Nat

variable (clock : Nat → Instant)

/-- `Instant::now()`: the next reading of the clock. -/
def Thread.now (th : Thread) : Instant × Thread :=
  (clock th.reads, { th with reads := th.reads + 1 })

/-- `TimerWheel::default()`: `TimerWheel::new(4096, 1)`, created at `now`. -/
def TimerWheel.default {W : Type*} (now : Instant) : TimerWheel W := .new 4096 1 now

/-! ## `SleepFuture` -/

/-- `SleepFuture`. -/
structure SleepFuture (W : Type*) where
  wheel : Option (TimerWheel W)
  endTime : Instant

namespace SleepFuture

variable {W : Type*}

/-- `SleepFuture::new(duration)`: a wheel of its own, created at a first
    reading of the clock, and the end time from a second. -/
def new (duration : Nat) (th : Thread) : SleepFuture W × Thread :=
  let (start, th) := th.now clock
  let (now, th) := th.now clock
  (⟨some (TimerWheel.default start), now + duration⟩, th)

/-- `SleepFuture::poll_inner`, with the waker of the context: before the end
    time, the waker is scheduled on the future's own wheel. -/
def poll (f : SleepFuture W) (waker : W) (th : Thread) : Poll Unit × SleepFuture W × Thread :=
  let (now, th) := th.now clock
  if now ≥ f.endTime then (.ready (), f, th)
  else
    match f.wheel with
    | some wheel =>
      let (wheel, _, counter) := wheel.schedule f.endTime waker th.timerCounter
      (.pending, { f with wheel := some wheel }, { th with timerCounter := counter })
    | none => (.pending, f, th)

variable {clock} {f : SleepFuture W} {waker : W} {th : Thread}

theorem endTime_new (duration : Nat) (th : Thread) :
    (new clock duration th : SleepFuture W × Thread).1.endTime = clock (th.reads + 1) + duration :=
  rfl

@[simp] theorem reads_new (duration : Nat) (th : Thread) :
    (new clock duration th : SleepFuture W × Thread).2.reads = th.reads + 2 :=
  rfl

theorem poll_fst : (f.poll clock waker th).1 =
    if clock th.reads ≥ f.endTime then .ready () else .pending := by
  by_cases h : clock th.reads ≥ f.endTime
  · simp [poll, Thread.now, h]
  · cases hw : f.wheel <;> simp [poll, Thread.now, h, hw]

@[simp] theorem endTime_poll : (f.poll clock waker th).2.1.endTime = f.endTime := by
  by_cases h : clock th.reads ≥ f.endTime
  · simp [poll, Thread.now, h]
  · cases hw : f.wheel <;> simp [poll, Thread.now, h, hw]

@[simp] theorem reads_poll : (f.poll clock waker th).2.2.reads = th.reads + 1 := by
  by_cases h : clock th.reads ≥ f.endTime
  · simp [poll, Thread.now, h]
  · cases hw : f.wheel <;> simp [poll, Thread.now, h, hw]

theorem poll_of_le (h : f.endTime ≤ clock th.reads) :
    f.poll clock waker th = (.ready (), f, { th with reads := th.reads + 1 }) := by
  simp [poll, Thread.now, h]

/-- A pending poll schedules the waker, at the end time, on the wheel of the
    future. -/
theorem poll_of_lt {wheel : TimerWheel W} (hw : f.wheel = some wheel)
    (h : clock th.reads < f.endTime) :
    f.poll clock waker th =
      (.pending, { f with wheel := some (wheel.schedule f.endTime waker th.timerCounter).1 },
        ⟨th.reads + 1, (wheel.schedule f.endTime waker th.timerCounter).2.2⟩) := by
  simp [poll, Thread.now, Nat.not_le.mpr h, hw]

end SleepFuture

/-! ## `Timeout` -/

/-- `TimeoutError`. -/
structure TimeoutError where
  deriving DecidableEq, Repr

/-- `Timeout`: a future and the sleep that bounds it. -/
structure Timeout (F W : Type*) where
  future : F
  timeout : SleepFuture W

namespace Timeout

variable {F W α : Type*}

/-- `Timeout::new(future, duration)`. -/
def new (future : F) (duration : Nat) (th : Thread) : Timeout F W × Thread :=
  let (timeout, th) := SleepFuture.new clock duration th
  (⟨future, timeout⟩, th)

/-- `Timeout::poll`, with `pollFuture` the poll of the future: the future
    first, then the sleep. -/
def poll (pollFuture : F → W → Thread → Poll α × F × Thread) (t : Timeout F W) (waker : W)
    (th : Thread) : Poll (Except TimeoutError α) × Timeout F W × Thread :=
  match pollFuture t.future waker th with
  | (.ready val, future, th) => (.ready (.ok val), { t with future }, th)
  | (.pending, future, th) =>
    match t.timeout.poll clock waker th with
    | (.ready (), timeout, th) => (.ready (.error ⟨⟩), ⟨future, timeout⟩, th)
    | (.pending, timeout, th) => (.pending, ⟨future, timeout⟩, th)

end Timeout

/-! ## `Interval` -/

/-- `Interval`. -/
structure Interval where
  period : Nat
  nextTick : Instant

/-- `Interval::new(duration)`: the first deadline a period after the clock's
    reading. -/
def Interval.new (duration : Nat) (th : Thread) : Interval × Thread :=
  let (now, th) := th.now clock
  (⟨duration, now + duration⟩, th)

/-- The future `Interval::tick` returns: not yet polled, or awaiting a sleep. -/
inductive TickFuture (W : Type*) where
  | start
  | sleeping (sleep : SleepFuture W)

/-- What a poll of a tick future ends with: the tick returned, or it is
    pending on a sleep. -/
inductive TickResult (W : Type*) where
  | ready
  | pending (sleep : SleepFuture W)

namespace TickFuture

variable {W : Type*}

/-- The `.await` of a sleep in `tick`: ready, back to the head of the loop;
    pending, the tick is pending on it. -/
def awaitSleep (waker : W) (sleep : SleepFuture W) (iv : Interval) (th : Thread) :
    (Interval × Thread) ⊕ (TickResult W × Interval × Thread) :=
  match sleep.poll clock waker th with
  | (.ready (), _, th) => .inl (iv, th)
  | (.pending, sleep, th) => .inr (.pending sleep, iv, th)

/-- A round of the `loop` of `tick`, from its head: at or past the deadline,
    the deadline moves on by the period and the tick returns; before it, a
    sleep of the time left is awaited. -/
def round (waker : W) (st : Interval × Thread) :
    (Interval × Thread) ⊕ (TickResult W × Interval × Thread) :=
  let (now, th) := st.2.now clock
  if now ≥ st.1.nextTick then .inr (.ready, { st.1 with nextTick := st.1.nextTick + st.1.period }, th)
  else
    let (sleep, th) := SleepFuture.new clock (st.1.nextTick - now) th
    awaitSleep clock waker sleep st.1 th

/-- A poll of the tick future, its loop run for at most `fuel` rounds; `none`
    if they run out. -/
def poll (fuel : Nat) (f : TickFuture W) (iv : Interval) (waker : W) (th : Thread) :
    Option (TickResult W × Interval × Thread) :=
  match f with
  | .start => loop (round clock waker) fuel (iv, th)
  | .sleeping sleep =>
    match awaitSleep clock waker sleep iv th with
    | .inl st => loop (round clock waker) fuel st
    | .inr r => some r

/-- What a poll of a tick future on the interval `iv` ends with: the tick, at
    a reading at or past the deadline, the deadline moved on by the period; or
    pending on a sleep that ends at or past the deadline. -/
def Ticked (iv : Interval) : TickResult W × Interval × Thread → Prop
  | (.ready, iv', th') =>
    iv' = { iv with nextTick := iv.nextTick + iv.period } ∧ ∃ k, th'.reads = k + 1 ∧ iv.nextTick ≤ clock k
  | (.pending sleep, iv', _) => iv' = iv ∧ iv.nextTick ≤ sleep.endTime

variable {clock} {waker : W} {iv : Interval} {th : Thread}

theorem round_of_le (h : iv.nextTick ≤ clock th.reads) :
    round clock waker (iv, th) =
      .inr (.ready, { iv with nextTick := iv.nextTick + iv.period }, { th with reads := th.reads + 1 }) := by
  simp [round, Thread.now, h]

/-- Before the deadline, a round awaits a sleep that ends at or past it: the
    sleep's end time is a later reading plus the time left. -/
theorem round_of_lt (hmono : Monotone clock) (waker : W) (h : clock th.reads < iv.nextTick) :
    ∃ sleep th', iv.nextTick ≤ sleep.endTime ∧
      round clock waker (iv, th) = awaitSleep clock waker sleep iv th' := by
  refine ⟨(SleepFuture.new clock (iv.nextTick - clock th.reads) { th with reads := th.reads + 1 }).1,
    _, ?_, by simp [round, Thread.now, Nat.not_le.mpr h]; rfl⟩
  rw [SleepFuture.endTime_new]
  show iv.nextTick ≤ clock (th.reads + 1 + 1) + (iv.nextTick - clock th.reads)
  have hle : clock th.reads ≤ clock (th.reads + 1 + 1) := hmono (by omega)
  calc iv.nextTick = clock th.reads + (iv.nextTick - clock th.reads) := (Nat.add_sub_cancel' h.le).symm
    _ ≤ clock (th.reads + 1 + 1) + (iv.nextTick - clock th.reads) := Nat.add_le_add_right hle _

/-- A sleep that is ready at a reading at or past the deadline leaves the
    next reading at or past it too. -/
theorem awaitSleep_eq_inl (hmono : Monotone clock) {sleep : SleepFuture W} {st : Interval × Thread}
    (hend : iv.nextTick ≤ sleep.endTime) (h : awaitSleep clock waker sleep iv th = .inl st) :
    st.1 = iv ∧ iv.nextTick ≤ clock st.2.reads := by
  have hfst : (sleep.poll clock waker th).1 = _ := SleepFuture.poll_fst
  have hreads : (sleep.poll clock waker th).2.2.reads = _ := SleepFuture.reads_poll
  unfold awaitSleep at h
  split at h
  · rename_i th' hpoll
    cases h
    rw [hpoll] at hfst hreads
    -- the sleep was ready: the reading was at or past its end
    have hready : sleep.endTime ≤ clock th.reads := by
      by_contra hlt
      simp [hlt] at hfst
    have hle : clock th.reads ≤ clock th'.reads :=
      hmono (show th.reads ≤ th'.reads by simp at hreads; omega)
    exact ⟨rfl, hend.trans (hready.trans hle)⟩
  · cases h

theorem awaitSleep_eq_inr {sleep : SleepFuture W} {r : TickResult W × Interval × Thread}
    (h : awaitSleep clock waker sleep iv th = .inr r) :
    ∃ sleep' th', r = (.pending sleep', iv, th') ∧ sleep'.endTime = sleep.endTime := by
  have hend : (sleep.poll clock waker th).2.1.endTime = _ := SleepFuture.endTime_poll
  unfold awaitSleep at h
  split at h
  · cases h
  · rename_i sleep' th' hpoll
    cases h
    rw [hpoll] at hend
    exact ⟨sleep', th', rfl, hend⟩

section loop

variable (hmono : Monotone clock)
include hmono

/-- A round goes on only before the deadline, and then the next round is at
    or past it. -/
theorem round_eq_inl {st st' : Interval × Thread} (h : round clock waker st = .inl st') :
    clock st.2.reads < st.1.nextTick ∧ st'.1 = st.1 ∧ st.1.nextTick ≤ clock st'.2.reads := by
  obtain ⟨iv, th⟩ := st
  by_cases hdue : iv.nextTick ≤ clock th.reads
  · rw [round_of_le hdue] at h
    cases h
  · have hlt : clock th.reads < iv.nextTick := Nat.lt_of_not_le hdue
    obtain ⟨sleep, th', hend, hr⟩ := round_of_lt hmono waker hlt
    rw [hr] at h
    exact ⟨hlt, awaitSleep_eq_inl hmono hend h⟩

/-- A round that ends the loop ends it as `Ticked` says. -/
theorem round_eq_inr {st : Interval × Thread} {r : TickResult W × Interval × Thread}
    (h : round clock waker st = .inr r) : Ticked clock st.1 r := by
  obtain ⟨iv, th⟩ := st
  by_cases hdue : iv.nextTick ≤ clock th.reads
  · rw [round_of_le hdue] at h
    cases h
    exact ⟨rfl, th.reads, rfl, hdue⟩
  · obtain ⟨sleep, th', hend, hr⟩ := round_of_lt hmono waker (Nat.lt_of_not_le hdue)
    rw [hr] at h
    obtain ⟨sleep', th'', rfl, hend'⟩ := awaitSleep_eq_inr h
    exact ⟨rfl, hend'.symm ▸ hend⟩

/-- The loop of a poll ends within two rounds, as `Ticked` says of the
    interval it started with: a round that goes on leaves the next one at or
    past the deadline, where the loop ends. -/
theorem loop_round (waker : W) (st : Interval × Thread) {fuel : Nat} (hfuel : 2 ≤ fuel) :
    ∃ r, loop (round clock waker) fuel st = some r ∧ Ticked clock st.1 r := by
  -- the variant: `0` at or past the deadline, `1` before it
  have hsome : (loop (round clock waker) fuel st).isSome := loop_isSome (fun _ => True)
    (fun st : Interval × Thread => if st.1.nextTick ≤ clock st.2.reads then 0 else 1)
    (fun s s' _ h => by
      obtain ⟨hlt, hiv, hdue'⟩ := round_eq_inl hmono h
      refine ⟨trivial, ?_⟩
      rw [hiv, if_pos hdue', if_neg (Nat.not_le.mpr hlt)]
      exact Nat.one_pos)
    trivial (by split <;> omega)
  obtain ⟨r, hr⟩ := Option.isSome_iff_exists.mp hsome
  refine ⟨r, hr, loop_spec (fun s => s.1 = st.1) (Ticked clock st.1) ?_ ?_ rfl hr⟩
  · intro s s' hs h
    exact (round_eq_inl hmono h).2.1.trans hs
  · intro s r hs h
    exact hs ▸ round_eq_inr hmono h

variable {f : TickFuture W} (hf : ∀ sleep, f = .sleeping sleep → iv.nextTick ≤ sleep.endTime)
include hf

/-- A poll of a tick future whose sleep ends at or past the deadline returns,
    with two rounds of its loop or more, as `Ticked` says. -/
theorem poll_spec (waker : W) (th : Thread) {fuel : Nat} (hfuel : 2 ≤ fuel) :
    ∃ r, f.poll clock fuel iv waker th = some r ∧ Ticked clock iv r := by
  cases f with
  | start => exact loop_round hmono waker (iv, th) hfuel
  | sleeping sleep =>
    have hend := hf sleep rfl
    cases hs : awaitSleep clock waker sleep iv th with
    | inl st =>
      obtain ⟨hiv, -⟩ := awaitSleep_eq_inl hmono hend hs
      obtain ⟨r, hr, ht⟩ := loop_round hmono waker st hfuel
      exact ⟨r, by simp only [poll, hs, hr], hiv ▸ ht⟩
    | inr r =>
      obtain ⟨sleep', th', rfl, he⟩ := awaitSleep_eq_inr hs
      exact ⟨(.pending sleep', iv, th'), by simp only [poll, hs], rfl, he ▸ hend⟩

/-- More rounds than two change nothing: the loop has ended by then. -/
theorem poll_of_le {fuel : Nat} (hfuel : 2 ≤ fuel) :
    f.poll clock fuel iv waker th = f.poll clock 2 iv waker th := by
  obtain ⟨r, hr, -⟩ := poll_spec hmono hf waker th (le_refl 2)
  rw [hr]
  cases f with
  | start => exact loop_of_le hfuel hr
  | sleeping sleep =>
    cases hs : awaitSleep clock waker sleep iv th with
    | inl st =>
      simp only [poll, hs] at hr ⊢
      exact loop_of_le hfuel hr
    | inr r' =>
      simp only [poll, hs] at hr ⊢
      exact hr

end loop

end TickFuture

/-! ## Runs of an interval -/

/-- What is done with an interval: a call of `tick`, whose future replaces the
    one awaited before, dropping it; a poll of the future awaited. -/
inductive IntervalEvent (W : Type*) where
  | tick
  | poll (waker : W)

/-- An interval, the tick future awaited if any, the thread, and for each tick
    that returned its deadline and the reading of the clock it returned at. -/
structure IntervalRun (W : Type*) where
  interval : Interval
  future : Option (TickFuture W)
  thread : Thread
  fired : List (Instant × Instant)

namespace IntervalRun

variable {W : Type*}

/-- `Interval::new(period)`, with no tick called yet. -/
def start (period : Nat) (th : Thread) : IntervalRun W :=
  ⟨(Interval.new clock period th).1, none, (Interval.new clock period th).2, []⟩

/-- One event. A poll runs two rounds of the loop of `tick`, all it takes on a
    monotone clock (`TickFuture.poll_of_le`); the tick returns at the last
    reading of the poll. -/
def step (s : IntervalRun W) : IntervalEvent W → Option (IntervalRun W)
  | .tick => some { s with future := some .start }
  | .poll waker =>
    match s.future with
    | none => some s
    | some f =>
      (f.poll clock 2 s.interval waker s.thread).map fun r =>
        match r with
        | (.ready, iv, th) => ⟨iv, none, th, s.fired ++ [(s.interval.nextTick, clock (th.reads - 1))]⟩
        | (.pending sleep, iv, th) => ⟨iv, some (.sleeping sleep), th, s.fired⟩

/-- A run of events. -/
def run (s : IntervalRun W) (events : List (IntervalEvent W)) : Option (IntervalRun W) :=
  events.foldlM (step clock) s

/-- Along a run from an interval made at the reading `t0`: the deadline after
    `n` ticks is `t0` plus `n + 1` periods, each tick returned at or past its
    deadline, and a sleep awaited ends at or past the deadline. -/
structure Inv (t0 period : Nat) (s : IntervalRun W) : Prop where
  period_eq : s.interval.period = period
  nextTick_eq : s.interval.nextTick = t0 + (s.fired.length + 1) * period
  deadlines : s.fired.map Prod.fst = (List.range s.fired.length).map fun k => t0 + (k + 1) * period
  late : ∀ x ∈ s.fired, x.1 ≤ x.2
  sleeping : ∀ sleep, s.future = some (.sleeping sleep) → s.interval.nextTick ≤ sleep.endTime

variable {clock}

theorem inv_start (period : Nat) (th : Thread) :
    (start clock period th : IntervalRun W).Inv (clock th.reads) period where
  period_eq := rfl
  nextTick_eq := by simp [start, Interval.new, Thread.now]
  deadlines := rfl
  late _ h := absurd h List.not_mem_nil
  sleeping _ h := by simp [start] at h

variable {t0 period : Nat} {s : IntervalRun W}

/-- A tick moves the deadline on by one period, and records it with the
    reading it returned at. -/
theorem Inv.ready (h : s.Inv t0 period) {th : Thread} {k : Nat} (hk : th.reads = k + 1)
    (hlate : s.interval.nextTick ≤ clock k) :
    (⟨{ s.interval with nextTick := s.interval.nextTick + s.interval.period }, none, th,
      s.fired ++ [(s.interval.nextTick, clock (th.reads - 1))]⟩ : IntervalRun W).Inv t0 period where
  period_eq := h.period_eq
  nextTick_eq := by
    simp only [h.nextTick_eq, h.period_eq, List.length_append, List.length_singleton]
    ring
  deadlines := by
    rw [List.map_append, h.deadlines, List.length_append, List.length_singleton, List.range_succ,
      List.map_append, h.nextTick_eq]
    rfl
  late x hx := by
    rcases List.mem_append.mp hx with hx | hx
    · exact h.late x hx
    · rw [List.mem_singleton.mp hx, hk]
      exact hlate
  sleeping _ hs := by simp at hs

theorem Inv.step (hmono : Monotone clock) (h : s.Inv t0 period) (e : IntervalEvent W) :
    ∃ s', s.step clock e = some s' ∧ s'.Inv t0 period := by
  cases e with
  | tick => exact ⟨_, rfl, { h with sleeping := fun _ hs => by simp at hs }⟩
  | poll waker =>
    cases hf : s.future with
    | none => exact ⟨s, by simp [IntervalRun.step, hf], h⟩
    | some f =>
      obtain ⟨⟨res, iv, th⟩, hr, ht⟩ := TickFuture.poll_spec hmono
        (fun sleep hs => h.sleeping sleep (hf ▸ hs ▸ rfl)) waker s.thread (le_refl 2)
      cases res with
      | ready =>
        obtain ⟨rfl, k, hk, hlate⟩ := ht
        exact ⟨_, by simp only [IntervalRun.step, hf, hr, Option.map_some], h.ready hk hlate⟩
      | pending sleep =>
        obtain ⟨rfl, hend⟩ := ht
        refine ⟨⟨s.interval, some (.sleeping sleep), th, s.fired⟩,
          by simp only [IntervalRun.step, hf, hr, Option.map_some], ?_⟩
        exact { h with sleeping := fun sleep' hs => by cases hs; exact hend }

/-- The run lemma: on a monotone clock every run is defined and keeps `Inv`. -/
theorem Inv.run (hmono : Monotone clock) (h : s.Inv t0 period) (events : List (IntervalEvent W)) :
    ∃ s', s.run clock events = some s' ∧ s'.Inv t0 period :=
  run_total (Inv t0 period) (fun _ e h => h.step hmono e) h events

/-- Along every run of `tick` calls and polls on a monotone clock, every poll
    returns; the deadline after `n` ticks is the reading `Interval::new` made
    plus `n + 1` periods, however late the ticks returned, so the ticks never
    drift; and the `k`-th tick, of deadline `k + 1` periods on, returned at a
    reading at or past it. -/
theorem interval_no_drift (hmono : Monotone clock) (period : Nat) (th : Thread)
    (events : List (IntervalEvent W)) :
    ∃ s, (start clock period th).run clock events = some s ∧
      s.interval.nextTick = clock th.reads + (s.fired.length + 1) * period ∧
      s.fired.map Prod.fst =
        (List.range s.fired.length).map (fun k => clock th.reads + (k + 1) * period) ∧
      ∀ x ∈ s.fired, x.1 ≤ x.2 := by
  obtain ⟨s, hs, h⟩ := (inv_start period th).run hmono events
  exact ⟨s, hs, h.nextTick_eq, h.deadlines, h.late⟩

theorem interval_no_drift_two_ticks :
    Monotone (fun k : Nat => 100 * k) ∧
    ∃ s, (start (fun k => 100 * k) 10 ⟨0, 1⟩ : IntervalRun Unit).run (fun k => 100 * k)
        [.tick, .poll (), .tick, .poll ()] = some s ∧
      s.interval.nextTick = 100 * 0 + (s.fired.length + 1) * 10 ∧
      s.fired.map Prod.fst =
        (List.range s.fired.length).map (fun k => 100 * 0 + (k + 1) * 10) ∧
      ∀ x ∈ s.fired, x.1 ≤ x.2 :=
  ⟨fun _ _ h => Nat.mul_le_mul_left 100 h, interval_no_drift (fun _ _ h => Nat.mul_le_mul_left 100 h) 10 ⟨0, 1⟩ _⟩

/- Two ticks called 100 ns apart on an interval of 10 ns both return at once,
   at the deadlines 10 and 20: a late tick is caught up, not skipped. -/
example : ((start (fun k => 100 * k) 10 ⟨0, 1⟩ : IntervalRun Unit).run (fun k => 100 * k)
    [.tick, .poll (), .tick, .poll ()]).map (·.fired) = some [(10, 100), (20, 200)] := by
  decide

end IntervalRun

/-! ## Runs of a timeout -/

/-- A timeout polled again and again: for each poll its waker, what the poll
    of its future returned, the reading of the clock its sleep made if it was
    polled, and the result. -/
structure TimeoutRun (F W α : Type*) where
  timeout : Timeout F W
  thread : Thread
  polls : List (W × Poll α × Option Instant × Poll (Except TimeoutError α))

namespace TimeoutRun

variable {F W α : Type*} (pollFuture : F → W → Thread → Poll α × F × Thread)

/-- `Timeout::new(future, duration)`, not yet polled. -/
def start (future : F) (duration : Nat) (th : Thread) : TimeoutRun F W α :=
  let t : Timeout F W × Thread := Timeout.new clock future duration th
  ⟨t.1, t.2, []⟩

/-- A poll with the waker `waker`. -/
def step (s : TimeoutRun F W α) (waker : W) : TimeoutRun F W α :=
  let inner := pollFuture s.timeout.future waker s.thread
  let reading := match inner.1 with
    | .ready _ => none
    | .pending => some (clock inner.2.2.reads)
  let r := s.timeout.poll clock pollFuture waker s.thread
  ⟨r.2.1, r.2.2, s.polls ++ [(waker, inner.1, reading, r.1)]⟩

/-- A run of polls. -/
def run (s : TimeoutRun F W α) (wakers : List W) : TimeoutRun F W α :=
  wakers.foldl (step clock pollFuture) s

/-- What a poll of a timeout with the deadline `deadline` returned, from what
    the poll of its future returned: `Ok` with the future's value, its sleep not
    polled; else `Err(TimeoutError)` if its sleep read the clock at or past the
    deadline, and `Pending` if before. -/
def Outcome (deadline : Instant) : W × Poll α × Option Instant × Poll (Except TimeoutError α) → Prop
  | (_, .ready v, reading, result) => reading = none ∧ result = .ready (.ok v)
  | (_, .pending, reading, result) =>
    ∃ now, reading = some now ∧ result = if now ≥ deadline then .ready (.error ⟨⟩) else .pending

/-- The wakers of the polls that returned `Pending`. -/
def pendingWakers (polls : List (W × Poll α × Option Instant × Poll (Except TimeoutError α))) :
    List W :=
  (polls.filter (·.2.2.2.isPending)).map (·.1)

/-- Along the polls of a timeout with the deadline `deadline`: the deadline
    stays; each poll returned as `Outcome` says; and the sleep's own wheel
    holds, as entries, the wakers of the polls that returned `Pending`, and
    nothing else. -/
structure Inv (deadline : Instant) (s : TimeoutRun F W α) : Prop where
  endTime : s.timeout.timeout.endTime = deadline
  outcomes : ∀ p ∈ s.polls, Outcome deadline p
  wheel : ∃ w, s.timeout.timeout.wheel = some w ∧ w.Valid ∧
    (w.slots.flatten.map (·.waker)).Perm (pendingWakers s.polls)

variable {clock} {pollFuture}

theorem inv_start (future : F) (duration : Nat) (th : Thread) :
    (start clock future duration th : TimeoutRun F W α).Inv (clock (th.reads + 1) + duration) where
  endTime := rfl
  outcomes _ h := absurd h List.not_mem_nil
  wheel := by
    refine ⟨TimerWheel.default (clock th.reads), rfl, .new (by decide) (by decide) _, ?_⟩
    show ((List.replicate 4096 []).flatten.map _).Perm []
    rw [List.flatten_replicate_nil, List.map_nil]

@[simp] theorem pendingWakers_append
    (polls : List (W × Poll α × Option Instant × Poll (Except TimeoutError α)))
    (x : W × Poll α × Option Instant × Poll (Except TimeoutError α)) :
    pendingWakers (polls ++ [x]) = pendingWakers polls ++ if x.2.2.2.isPending then [x.1] else [] := by
  unfold pendingWakers
  split <;> simp [List.filter_append, *]

variable {deadline : Instant} {s : TimeoutRun F W α}

/-- The invariant after one more poll, recorded as `x`: the sleep's end time
    kept, the poll's outcome, and the wheel after it. -/
theorem Inv.snoc (h : s.Inv deadline) {s' : TimeoutRun F W α}
    {x : W × Poll α × Option Instant × Poll (Except TimeoutError α)}
    (hpolls : s'.polls = s.polls ++ [x])
    (hend : s'.timeout.timeout.endTime = s.timeout.timeout.endTime) (hx : Outcome deadline x)
    (hwheel : ∃ w, s'.timeout.timeout.wheel = some w ∧ w.Valid ∧
      (w.slots.flatten.map (·.waker)).Perm (pendingWakers s'.polls)) : s'.Inv deadline where
  endTime := hend.trans h.endTime
  outcomes p hp := by
    rw [hpolls] at hp
    rcases List.mem_append.mp hp with hp | hp
    · exact h.outcomes p hp
    · exact List.mem_singleton.mp hp ▸ hx
  wheel := hwheel

/-- A poll keeps the invariant: a ready future leaves the sleep alone; a
    pending one has the sleep read the clock, and schedule the waker on its
    wheel before the deadline. -/
theorem Inv.step (h : s.Inv deadline) (waker : W) : (s.step clock pollFuture waker).Inv deadline := by
  obtain ⟨w, hw, hvalid, hperm⟩ := h.wheel
  rcases hinner : pollFuture s.timeout.future waker s.thread with ⟨p, future, th⟩
  cases p with
  | ready v =>
    have hs : s.step clock pollFuture waker =
        ⟨{ s.timeout with future }, th, s.polls ++ [(waker, .ready v, none, .ready (.ok v))]⟩ := by
      simp only [TimeoutRun.step, Timeout.poll, hinner]
    rw [hs]
    refine h.snoc rfl rfl ⟨rfl, rfl⟩ ⟨w, hw, hvalid, ?_⟩
    simpa [Poll.isPending] using hperm
  | pending =>
    by_cases hdue : s.timeout.timeout.endTime ≤ clock th.reads
    · -- at or past the deadline: `Err`, and the sleep is left as it was
      have hs : s.step clock pollFuture waker =
          ⟨⟨future, s.timeout.timeout⟩, { th with reads := th.reads + 1 },
            s.polls ++ [(waker, .pending, some (clock th.reads), .ready (.error ⟨⟩))]⟩ := by
        simp only [TimeoutRun.step, Timeout.poll, hinner, SleepFuture.poll_of_le hdue]
      rw [hs]
      refine h.snoc rfl rfl ⟨_, rfl, by rw [if_pos (h.endTime ▸ hdue)]⟩ ⟨w, hw, hvalid, ?_⟩
      simpa [Poll.isPending] using hperm
    · -- before it: `Pending`, with the waker scheduled on the sleep's wheel
      have hlt : clock th.reads < s.timeout.timeout.endTime := Nat.lt_of_not_le hdue
      have hs : s.step clock pollFuture waker =
          ⟨⟨future, { s.timeout.timeout with
              wheel := some (w.schedule s.timeout.timeout.endTime waker th.timerCounter).1 }⟩,
            ⟨th.reads + 1, (w.schedule s.timeout.timeout.endTime waker th.timerCounter).2.2⟩,
            s.polls ++ [(waker, .pending, some (clock th.reads), .pending)]⟩ := by
        simp only [TimeoutRun.step, Timeout.poll, hinner, SleepFuture.poll_of_lt hw hlt]
      rw [hs]
      refine h.snoc rfl rfl ⟨_, rfl, by rw [if_neg (h.endTime ▸ hdue)]⟩
        ⟨_, rfl, hvalid.schedule _ _ _, ?_⟩
      have hsched := (w.flatten_schedule_perm hvalid s.timeout.timeout.endTime waker
        th.timerCounter).map (·.waker)
      rw [List.map_append] at hsched
      have hwakers : pendingWakers (s.polls ++ [(waker, .pending, some (clock th.reads), .pending)]) =
          pendingWakers s.polls ++ [waker] := by
        simp [Poll.isPending]
      rw [hwakers]
      exact hsched.trans (hperm.append_right [waker])

theorem Inv.run (h : s.Inv deadline) (wakers : List W) :
    (s.run clock pollFuture wakers).Inv deadline :=
  foldl_invariant (Inv deadline) (fun _ waker h => h.step waker) h wakers

/-- Along every run of polls of a timeout, whatever its future does and the
    clock reads: the deadline is the second reading `Timeout::new` made plus
    the duration; each poll returned `Ok` with the future's value whenever the
    future was ready, even past the deadline, and else `Err(TimeoutError)` if
    its sleep read the clock at or past the deadline, `Pending` if before; and
    each `Pending` left its waker on the sleep's own wheel, which nothing
    expires: the wheel holds those wakers and no other. -/
theorem timeout_outcomes (future : F) (duration : Nat) (th : Thread) (wakers : List W) :
    let s := (start clock future duration th : TimeoutRun F W α).run clock pollFuture wakers
    s.timeout.timeout.endTime = clock (th.reads + 1) + duration ∧
      (∀ p ∈ s.polls, Outcome (clock (th.reads + 1) + duration) p) ∧
      ∃ w, s.timeout.timeout.wheel = some w ∧
        (w.slots.flatten.map (·.waker)).Perm (pendingWakers s.polls) := by
  have h : ((start clock future duration th : TimeoutRun F W α).run clock pollFuture wakers).Inv
      (clock (th.reads + 1) + duration) :=
    (inv_start future duration th).run wakers
  obtain ⟨w, hw, -, hperm⟩ := h.wheel
  exact ⟨h.endTime, h.outcomes, w, hw, hperm⟩

/- A future that never completes, bounded by 15 ns on a clock that reads
   `10 k` at its `k`-th reading: the deadline is `10 + 15`; the first poll reads
   `20` and is pending, the second reads `30` and times out. -/
example : ((start (fun k => 10 * k) () 15 ⟨0, 1⟩ : TimeoutRun Unit Unit Unit).run (fun k => 10 * k)
    (fun f _ th => (.pending, f, th)) [(), ()]).polls.map (·.2.2.2) =
      [.pending, .ready (.error ⟨⟩)] := by
  decide

end TimeoutRun

end Miniss
