import Miniss.Runtime.Cpu
import Miniss.Data.Run

/-!
# Shutdown by signal

`src/signal.rs`: the thread that `SignalHandler::start` spawns takes SIGINT,
SIGTERM and SIGHUP one after another. With the shared `shutdown_flag` down, a
signal raises it and sends `Shutdown` into the channel of every CPU the handler
was made with (`with_cpu_handles`); with the flag up, it ends the process
(`process::exit(1)`). The callbacks of `register_callback` are read by nothing.

The thread of a CPU runs `Cpu::run`: while `running`, a `tick`, then the rest
of the iteration (`Cpu.afterTick`; `runIteration_eq_afterTick` says the two
make one `Cpu.runIteration`). `SignalRuntime` interleaves the signal thread,
these threads, at the grain of a `tick` and of the rest of an iteration, and
the sends of other threads into the CPUs' channels. The sends of one signal
are one step: what a CPU does between two of them touches neither the signal
thread nor another CPU, and commutes with the sends that come later. Nothing
else in the crate stores the flag.

* `running_foldl_handleMessage`, `tick_frame`: no message raises `running`, and
  a `tick` leaves it as the messages it handled first left it;
* `CpuThread.Stopping`: the thread panicked, or `running` is down, or a
  `Shutdown` waits in its channel; every event keeps it, and a `tick` from it
  lowers `running` (`Inv.step`);
* `signal_stops_cpus`: along every interleaving, after the first signal the
  process takes no other (it ends at the second), and every CPU runs at most
  one more `tick`, after which its loop ends.
-/

namespace Miniss

namespace Cpu

variable {β σ R : Type*} {cpu cpu' : Cpu β σ R}

/-- The rest of an iteration of `Cpu::run` after its `tick`: with the ready
    queue empty, the message `recv_timeout` returns, if any; otherwise every
    message waiting. -/
def afterTick (cpu : Cpu β σ R) : Cpu β σ R :=
  if cpu.readyQueue.isEmpty then
    match cpu.messageReceiver.tryRecv with
    | (.ok message, rx) => ({ cpu with messageReceiver := rx } : Cpu β σ R).handleMessage message
    | (.error .disconnected, _) => { cpu with running := false }
    | (.error .empty, _) => cpu
  else cpu.processMessages

variable (poll : σ → TaskId → PollStep β σ)

/-- An iteration of `Cpu::run` is its `tick`, the messages sent meanwhile, and
    the rest of the iteration. -/
theorem runIteration_eq_afterTick (fuel : Nat) (now : Instant)
    (completions : Option (List (IoToken × R))) (arrived : List (CrossCpuMessage σ)) :
    runIteration poll fuel now completions arrived cpu =
      (tick poll fuel now completions cpu).map (Except.map fun r =>
        afterTick { r.1 with messageReceiver := arrived.foldl Chan.send r.1.messageReceiver }) := by
  unfold runIteration afterTick
  cases tick poll fuel now completions cpu with
  | none => rfl
  | some x =>
    cases x with
    | error k => rfl
    | ok r =>
      obtain ⟨c, b⟩ := r
      -- both sides match on the same `tryRecv`
      dsimp only [Option.map_some, Except.map]
      split
      · rcases (arrived.foldl Chan.send c.messageReceiver).tryRecv with ⟨e | m, rx⟩
        · cases e <;> rfl
        · rfl
      · rfl

variable {poll}

omit poll in
theorem handleMessage_running_of_false (h : cpu.running = false) (m : CrossCpuMessage σ) :
    (cpu.handleMessage m).running = false := by
  cases m <;> simp [handleMessage, insertTask, removeTask, h]

omit poll in
/-- Handling messages never raises `running`, and a `Shutdown` among them
    lowers it. -/
theorem running_foldl_handleMessage {ms : List (CrossCpuMessage σ)}
    (h : cpu.running = false ∨ .shutdown ∈ ms) : (ms.foldl handleMessage cpu).running = false := by
  induction ms generalizing cpu with
  | nil => simpa using h
  | cons m ms ih =>
    apply ih
    rcases h with h | h
    · exact .inl (handleMessage_running_of_false h m)
    · rcases List.mem_cons.1 h with rfl | h
      · exact .inl rfl
      · exact .inr h

omit poll in
theorem running_processMessages (h : cpu.running = false ∨ .shutdown ∈ cpu.messageReceiver.buffer) :
    cpu.processMessages.running = false :=
  running_foldl_handleMessage h

theorem runTask_running {taskId : TaskId} {b : Bool} (h : runTask poll cpu taskId = .ok (cpu', b)) :
    cpu'.running = cpu.running := by
  obtain ⟨_, _, _, rfl⟩ := runTask_shape h
  rfl

/-- The ready loop of a `tick` that returns leaves `running` and the channel. -/
theorem loop_tickRound_frame {fuel : Nat} {st r : Cpu β σ R × Bool}
    (h : loop (tickRound poll) fuel st = some (.ok r)) :
    r.1.running = st.1.running ∧ r.1.messageReceiver = st.1.messageReceiver := by
  refine loop_spec (fun s => s.1.running = st.1.running ∧ s.1.messageReceiver = st.1.messageReceiver)
    (fun res => ∀ r, res = .ok r → r.1.running = st.1.running ∧
      r.1.messageReceiver = st.1.messageReceiver) ?_ ?_ ⟨rfl, rfl⟩ h r rfl
  · rintro s s' ⟨hr, hm⟩ hs
    obtain ⟨_, _, r, -, hrun, rfl⟩ := tickRound_eq_inl hs
    exact ⟨(runTask_running hrun).trans hr, (messageReceiver_runTask hrun).trans hm⟩
  · rintro s res hs hb r rfl
    -- a round that stops with a result found the queue empty
    rcases tickRound_eq_inr hb with ⟨-, hres⟩ | ⟨_, _, _, -, -, hres⟩
    · cases hres
      exact hs
    · cases hres

omit poll in
theorem pollIoCompletions_frame (c : Cpu β σ R) (completions : Option (List (IoToken × R))) :
    (c.pollIoCompletions completions).1.running = c.running ∧
      (c.pollIoCompletions completions).1.messageReceiver = c.messageReceiver := by
  cases completions with
  | none => exact ⟨rfl, rfl⟩
  | some cs =>
    simp only [pollIoCompletions]
    split_ifs <;> exact ⟨rfl, rfl⟩

/-- A `tick` that returns leaves `running` and the channel as the messages it
    handled first left them. -/
theorem tick_frame {fuel : Nat} {now : Instant} {completions : Option (List (IoToken × R))} {b : Bool}
    (h : tick poll fuel now completions cpu = some (.ok (cpu', b))) :
    cpu'.running = cpu.processMessages.running ∧
      cpu'.messageReceiver = cpu.processMessages.messageReceiver := by
  obtain ⟨e, res, he, hl, hx⟩ := tick_eq_some h
  obtain ⟨⟨c, d⟩, rfl⟩ : ∃ r, res = .ok r := by
    cases res with
    | error k => cases hx
    | ok r => exact ⟨r, rfl⟩
  obtain ⟨e', -, rfl⟩ := Option.map_eq_some_iff.1 he
  have hc : cpu' = (c.pollIoCompletions completions).1 := by
    cases hx
    rfl
  obtain ⟨hr, hm⟩ := loop_tickRound_frame hl
  obtain ⟨hr', hm'⟩ := pollIoCompletions_frame c completions
  subst hc
  exact ⟨hr'.trans hr, hm'.trans hm⟩

omit poll in
theorem afterTick_running_of_false (h : cpu.running = false) : cpu.afterTick.running = false := by
  unfold afterTick
  split
  · split
    · apply handleMessage_running_of_false
      exact h
    · rfl
    · exact h
  · exact running_processMessages (.inl h)

omit poll in
/-- The rest of an iteration from a CPU whose `running` is down or whose channel
    holds a `Shutdown`: after it `running` is down, or the `Shutdown` still
    waits — `recv_timeout` took another message from the front. -/
theorem afterTick_stopping (h : cpu.running = false ∨ .shutdown ∈ cpu.messageReceiver.buffer) :
    cpu.afterTick.running = false ∨ .shutdown ∈ cpu.afterTick.messageReceiver.buffer := by
  rcases h with h | h
  · exact .inl (afterTick_running_of_false h)
  obtain ⟨m, rest, hb⟩ := List.exists_cons_of_ne_nil (List.ne_nil_of_mem h)
  unfold afterTick
  split
  · rw [Chan.tryRecv_of_cons hb]
    dsimp only
    rw [hb] at h
    rcases List.mem_cons.1 h with rfl | h
    · exact .inl rfl
    · exact .inr (by simpa using h)
  · exact .inl (running_processMessages (.inr h))

end Cpu

/-- The signals `SignalHandler::start` registers. -/
inductive Signal where
  | sigint
  | sigterm
  | sighup
  deriving DecidableEq, Repr

/-- A `SignalHandler` as its thread reads it: the shared flag, and the senders
    of the CPUs' channels if it was made by `with_cpu_handles`. -/
structure SignalHandler (σ : Type*) where
  shutdownFlag : Bool
  cpuHandles : Option (List (Chan (CrossCpuMessage σ)))

namespace SignalHandler

variable {σ : Type*}

/-- `SignalHandler::with_cpu_handles`. -/
def withCpuHandles (shutdownFlag : Bool) (cpuHandles : List (Chan (CrossCpuMessage σ))) :
    SignalHandler σ :=
  ⟨shutdownFlag, some cpuHandles⟩

/-- The body of the loop of the thread of `SignalHandler::start`, for one
    signal: with the flag down, the flag raised and `Shutdown` sent to every CPU
    in turn; with the flag up, `process::exit(1)`, here `none`. -/
def onSignal (h : SignalHandler σ) (_ : Signal) : Option (SignalHandler σ) :=
  if !h.shutdownFlag then
    some ⟨true, h.cpuHandles.map (List.map fun sender => sender.send .shutdown)⟩
  else none

end SignalHandler

/-- Where the thread of a CPU is in `Cpu::run`. -/
inductive CpuPhase where
  /-- at the test `while self.running` -/
  | top
  /-- after the `tick` of an iteration, before its rest -/
  | ticked
  /-- a task's poll panicked in `tick`, which unwound out of `run` -/
  | panicked
  deriving DecidableEq, Repr

/-- The thread of a CPU: the CPU, and where the thread is. -/
structure CpuThread (β σ R : Type*) where
  cpu : Cpu β σ R
  phase : CpuPhase

namespace CpuThread

variable {β σ R : Type*}

/-- The channel of the CPU. -/
def channel (t : CpuThread β σ R) : Chan (CrossCpuMessage σ) := t.cpu.messageReceiver

def withChannel (t : CpuThread β σ R) (rx : Chan (CrossCpuMessage σ)) : CpuThread β σ R :=
  ⟨{ t.cpu with messageReceiver := rx }, t.phase⟩

/-- `sender.send(message)` from another thread into the CPU's channel. -/
def send (t : CpuThread β σ R) (message : CrossCpuMessage σ) : CpuThread β σ R :=
  t.withChannel (t.channel.send message)

/-- The thread panicked, or `running` is down, or a `Shutdown` waits in the
    channel. -/
def Stopping (t : CpuThread β σ R) : Prop :=
  t.phase = .panicked ∨ t.cpu.running = false ∨ .shutdown ∈ t.cpu.messageReceiver.buffer

/-- The `tick`s the loop of a stopping thread may still run: one while it has
    not panicked and `running` is up. -/
def ticksLeft (t : CpuThread β σ R) : Nat :=
  if t.phase = .panicked then 0 else t.cpu.running.toNat

theorem ticksLeft_le_one (t : CpuThread β σ R) : t.ticksLeft ≤ 1 := by
  unfold ticksLeft
  split
  · exact Nat.zero_le 1
  · exact Bool.toNat_le _

@[simp] theorem send_cpu_running (t : CpuThread β σ R) (m : CrossCpuMessage σ) :
    (t.send m).cpu.running = t.cpu.running := rfl

@[simp] theorem send_phase (t : CpuThread β σ R) (m : CrossCpuMessage σ) :
    (t.send m).phase = t.phase := rfl

@[simp] theorem send_buffer (t : CpuThread β σ R) (m : CrossCpuMessage σ) :
    (t.send m).cpu.messageReceiver.buffer = t.cpu.messageReceiver.buffer ++ [m] := rfl

theorem Stopping.send {t : CpuThread β σ R} (h : t.Stopping) (m : CrossCpuMessage σ) :
    (t.send m).Stopping := by
  unfold Stopping at h ⊢
  simp only [send_phase, send_cpu_running, send_buffer, List.mem_append]
  tauto

theorem stopping_send_shutdown (t : CpuThread β σ R) : (t.send .shutdown).Stopping :=
  .inr (.inr (by simp))

theorem ticksLeft_send (t : CpuThread β σ R) (m : CrossCpuMessage σ) :
    (t.send m).ticksLeft = t.ticksLeft := rfl

end CpuThread

/-- A runtime of CPUs, each run by its thread, with a signal handler made by
    `with_cpu_handles` over all of them: the shared flag, and the threads. -/
structure SignalRuntime (β σ R : Type*) where
  shutdownFlag : Bool
  cpus : List (CpuThread β σ R)

/-- What can happen: the signal thread takes a signal; another thread sends a
    message into the channel of CPU `i` (`CpuHandle::submit_task`, `ping`,
    `cancel_task`, `shutdown`); the thread of CPU `i` runs a `tick` — at `now`,
    with the backend's `completions`, its ready loop given `fuel` rounds —, or
    the rest of its iteration. -/
inductive SignalEvent (σ R : Type*) where
  | signal (sig : Signal)
  | send (i : Nat) (message : CrossCpuMessage σ)
  | tick (i : Nat) (fuel : Nat) (now : Instant) (completions : Option (List (IoToken × R)))
  | afterTick (i : Nat)

namespace SignalEvent

variable {σ R : Type*}

def isSignal : SignalEvent σ R → Bool
  | .signal _ => true
  | _ => false

/-- A `tick` of the thread of CPU `i`. -/
def isTickOf (i : Nat) : SignalEvent σ R → Bool
  | .tick j .. => j == i
  | _ => false

end SignalEvent

namespace SignalRuntime

variable {β σ R : Type*} (poll : σ → TaskId → PollStep β σ)

/-- One event. A thread past the end of its loop, or past a panic, takes no
    step; a `tick` that never returns (`none`) is no step either. -/
def step (s : SignalRuntime β σ R) : SignalEvent σ R → Option (SignalRuntime β σ R)
  | .signal sig =>
    ((SignalHandler.withCpuHandles s.shutdownFlag (s.cpus.map CpuThread.channel)).onSignal sig).map
      fun h => ⟨h.shutdownFlag, s.cpus.zipWith CpuThread.withChannel (h.cpuHandles.getD [])⟩
  | .send i message =>
    s.cpus[i]?.map fun t => { s with cpus := s.cpus.set i (t.send message) }
  | .tick i fuel now completions =>
    match s.cpus[i]? with
    | some ⟨cpu, .top⟩ =>
      if cpu.running then
        match Cpu.tick poll fuel now completions cpu with
        | some (.ok (cpu', _)) => some { s with cpus := s.cpus.set i ⟨cpu', .ticked⟩ }
        -- the panic unwinds out of `run`: the thread ends
        | some (.error _) => some { s with cpus := s.cpus.set i ⟨cpu, .panicked⟩ }
        | none => none
      else none
    | _ => none
  | .afterTick i =>
    match s.cpus[i]? with
    | some ⟨cpu, .ticked⟩ => some { s with cpus := s.cpus.set i ⟨cpu.afterTick, .top⟩ }
    | _ => none

variable {poll} {s s' : SignalRuntime β σ R}

/-- A signal with the flag down raises it and sends `Shutdown` to every CPU;
    with the flag up the process ends. -/
theorem step_signal (sig : Signal) :
    step poll s (.signal sig) =
      if s.shutdownFlag then none else some ⟨true, s.cpus.map (·.send .shutdown)⟩ := by
  cases hf : s.shutdownFlag <;>
    simp [step, SignalHandler.onSignal, SignalHandler.withCpuHandles, hf, List.zipWith_map_right,
      List.zipWith_self, CpuThread.send]

/-- What a send can do: append to the channel of an existing CPU. -/
theorem step_send_eq_some {j : Nat} {m : CrossCpuMessage σ}
    (h : step poll s (.send j m) = some s') :
    ∃ t, s.cpus[j]? = some t ∧ s' = { s with cpus := s.cpus.set j (t.send m) } := by
  obtain ⟨t, hj, rfl⟩ := Option.map_eq_some_iff.1 h
  exact ⟨t, hj, rfl⟩

/-- What a `tick` can do: from a thread at its test with `running` up, a `tick`
    that returns, or one that panics. -/
theorem step_tick_eq_some {j fuel : Nat} {now : Instant} {completions : Option (List (IoToken × R))}
    (h : step poll s (.tick j fuel now completions) = some s') :
    ∃ cpu, s.cpus[j]? = some ⟨cpu, .top⟩ ∧ cpu.running = true ∧
      ((∃ cpu' b, Cpu.tick poll fuel now completions cpu = some (.ok (cpu', b)) ∧
          s' = { s with cpus := s.cpus.set j ⟨cpu', .ticked⟩ }) ∨
        (∃ k, Cpu.tick poll fuel now completions cpu = some (.error k) ∧
          s' = { s with cpus := s.cpus.set j ⟨cpu, .panicked⟩ })) := by
  simp only [SignalRuntime.step] at h
  split at h
  · rename_i cpu hj
    split at h
    · rename_i hrun
      refine ⟨cpu, hj, hrun, ?_⟩
      split at h
      · rename_i cpu' b htick
        exact .inl ⟨cpu', b, htick, (Option.some_inj.1 h).symm⟩
      · rename_i k htick
        exact .inr ⟨k, htick, (Option.some_inj.1 h).symm⟩
      · cases h
    · cases h
  · cases h

/-- What the rest of an iteration can do: from a thread after its `tick`. -/
theorem step_afterTick_eq_some {j : Nat} (h : step poll s (.afterTick j) = some s') :
    ∃ cpu, s.cpus[j]? = some ⟨cpu, .ticked⟩ ∧
      s' = { s with cpus := s.cpus.set j ⟨cpu.afterTick, .top⟩ } := by
  simp only [SignalRuntime.step] at h
  split at h
  · rename_i cpu hj
    exact ⟨cpu, hj, (Option.some_inj.1 h).symm⟩
  · cases h

/-- Events other than signals leave the flag. -/
theorem shutdownFlag_step {e : SignalEvent σ R} (he : e.isSignal = false)
    (h : step poll s e = some s') : s'.shutdownFlag = s.shutdownFlag := by
  cases e with
  | signal sig => cases he
  | send j m =>
    obtain ⟨t, -, rfl⟩ := step_send_eq_some h
    rfl
  | tick j fuel now completions =>
    obtain ⟨cpu, -, -, ⟨_, _, -, rfl⟩ | ⟨_, -, rfl⟩⟩ := step_tick_eq_some h <;> rfl
  | afterTick j =>
    obtain ⟨cpu, -, rfl⟩ := step_afterTick_eq_some h
    rfl

/-- The ticks left to the thread of CPU `i`. -/
def ticksLeft (s : SignalRuntime β σ R) (i : Nat) : Nat :=
  (s.cpus[i]?.map CpuThread.ticksLeft).getD 0

theorem ticksLeft_le_one (s : SignalRuntime β σ R) (i : Nat) : s.ticksLeft i ≤ 1 := by
  unfold ticksLeft
  cases s.cpus[i]? with
  | none => exact Nat.zero_le 1
  | some t => exact t.ticksLeft_le_one

/-- After the first signal: the flag up, and every thread stopping. -/
def Inv (s : SignalRuntime β σ R) : Prop :=
  s.shutdownFlag = true ∧ ∀ t ∈ s.cpus, t.Stopping

/-- Replacing the thread `j`, which the event `e` is for, by a stopping thread
    whose ticks left, with the event's own `tick`, are at most the old one's:
    the invariant holds after, and no CPU's ticks left grow. -/
theorem Inv.replace (hs : s.Inv) {j : Nat} {t t' : CpuThread β σ R} (hj : s.cpus[j]? = some t)
    (ht' : t'.Stopping) {e : SignalEvent σ R} (hother : ∀ i, i ≠ j → e.isTickOf i = false)
    (hle : t'.ticksLeft + (if e.isTickOf j then 1 else 0) ≤ t.ticksLeft) :
    ({ s with cpus := s.cpus.set j t' } : SignalRuntime β σ R).Inv ∧
      ∀ i, ({ s with cpus := s.cpus.set j t' } : SignalRuntime β σ R).ticksLeft i +
        (if e.isTickOf i then 1 else 0) ≤ s.ticksLeft i := by
  have hlt : j < s.cpus.length := (List.getElem?_eq_some_iff.1 hj).1
  refine ⟨⟨hs.1, fun u hu => ?_⟩, fun i => ?_⟩
  · rcases List.mem_or_eq_of_mem_set hu with hu | rfl
    · exact hs.2 u hu
    · exact ht'
  · by_cases hij : i = j
    · subst hij
      simp only [ticksLeft, List.getElem?_set_self hlt, hj, Option.map_some, Option.getD_some]
      exact hle
    · simp [ticksLeft, List.getElem?_set_ne (Ne.symm hij), hother i hij]

/-- A thread at its test with `running` up after the signal has its `Shutdown`
    waiting. -/
theorem Inv.shutdown_of_running (hs : s.Inv) {j : Nat} {cpu : Cpu β σ R}
    (hj : s.cpus[j]? = some ⟨cpu, .top⟩) (hrun : cpu.running = true) :
    .shutdown ∈ cpu.messageReceiver.buffer := by
  rcases hs.2 _ (List.mem_of_getElem? hj) with hp | hr | hsd
  · cases hp
  · rw [hrun] at hr
    cases hr
  · exact hsd

/-- One event from a state of the invariant keeps it, is no signal, and lowers
    the ticks left of the CPU whose `tick` it is. -/
theorem Inv.step (hs : s.Inv) {e : SignalEvent σ R} (h : step poll s e = some s') :
    s'.Inv ∧ e.isSignal = false ∧
      ∀ i, s'.ticksLeft i + (if e.isTickOf i then 1 else 0) ≤ s.ticksLeft i := by
  cases e with
  | signal sig =>
    rw [step_signal, if_pos hs.1] at h
    cases h
  | send j m =>
    obtain ⟨t, hj, rfl⟩ := step_send_eq_some h
    obtain ⟨hinv, hle⟩ := hs.replace hj ((hs.2 t (List.mem_of_getElem? hj)).send m)
      (e := .send j m) (fun _ _ => rfl) (by simp [CpuThread.ticksLeft_send, SignalEvent.isTickOf])
    exact ⟨hinv, rfl, hle⟩
  | tick j fuel now completions =>
    obtain ⟨cpu, hj, hrun, hcases⟩ := step_tick_eq_some h
    have hsd := hs.shutdown_of_running hj hrun
    have hother : ∀ i, i ≠ j →
        (SignalEvent.tick j fuel now completions : SignalEvent σ R).isTickOf i = false :=
      fun i hij => by simp [SignalEvent.isTickOf, Ne.symm hij]
    rcases hcases with ⟨cpu', b, htick, rfl⟩ | ⟨k, -, rfl⟩
    · -- the `tick` handled the `Shutdown` first
      have hdown : cpu'.running = false :=
        (Cpu.tick_frame htick).1.trans (Cpu.running_processMessages (.inr hsd))
      have hst : CpuThread.Stopping (⟨cpu', .ticked⟩ : CpuThread β σ R) := .inr (.inl hdown)
      obtain ⟨hinv, hle⟩ := hs.replace hj hst hother
        (by simp [CpuThread.ticksLeft, hdown, hrun, SignalEvent.isTickOf])
      exact ⟨hinv, rfl, hle⟩
    · have hst : CpuThread.Stopping (⟨cpu, .panicked⟩ : CpuThread β σ R) := .inl rfl
      obtain ⟨hinv, hle⟩ := hs.replace hj hst hother
        (by simp [CpuThread.ticksLeft, hrun, SignalEvent.isTickOf])
      exact ⟨hinv, rfl, hle⟩
  | afterTick j =>
    obtain ⟨cpu, hj, rfl⟩ := step_afterTick_eq_some h
    have hst' : cpu.running = false ∨ .shutdown ∈ cpu.messageReceiver.buffer := by
      rcases hs.2 _ (List.mem_of_getElem? hj) with hp | h
      · cases hp
      · exact h
    -- the rest of the iteration never raises `running`
    have hle : (CpuThread.mk cpu.afterTick .top : CpuThread β σ R).ticksLeft ≤
        (CpuThread.mk cpu .ticked : CpuThread β σ R).ticksLeft := by
      cases hr : cpu.running
      · simp [CpuThread.ticksLeft, Cpu.afterTick_running_of_false hr]
      · simpa [CpuThread.ticksLeft, hr] using CpuThread.ticksLeft_le_one ⟨cpu.afterTick, .top⟩
    have hst : CpuThread.Stopping (⟨cpu.afterTick, .top⟩ : CpuThread β σ R) :=
      (Cpu.afterTick_stopping hst').elim (fun h => .inr (.inl h)) (fun h => .inr (.inr h))
    obtain ⟨hinv, hle⟩ := hs.replace hj hst (e := .afterTick j) (fun _ _ => rfl)
      (by simpa [SignalEvent.isTickOf] using hle)
    exact ⟨hinv, rfl, hle⟩

/-- Along every run from a state of the invariant: it holds at the end, no
    event is a signal, and the `tick`s of a CPU are at most its ticks left. -/
theorem Inv.run (hs : s.Inv) {events : List (SignalEvent σ R)}
    (h : events.foldlM (SignalRuntime.step poll) s = some s') :
    s'.Inv ∧ (∀ e ∈ events, e.isSignal = false) ∧
      ∀ i, events.countP (SignalEvent.isTickOf i) + s'.ticksLeft i ≤ s.ticksLeft i := by
  induction events generalizing s with
  | nil =>
    cases h
    exact ⟨hs, by simp, by simp⟩
  | cons e events ih =>
    have h' : (SignalRuntime.step poll s e).bind
        (fun s₁ => events.foldlM (SignalRuntime.step poll) s₁) = some s' := h
    obtain ⟨s₁, hs₁, hrun⟩ := Option.bind_eq_some_iff.mp h'
    obtain ⟨hinv₁, hsig, hle₁⟩ := hs.step hs₁
    obtain ⟨hinv, hsigs, hle⟩ := ih hinv₁ hrun
    refine ⟨hinv, List.forall_mem_cons.2 ⟨hsig, hsigs⟩, fun i => ?_⟩
    have h1 := hle i
    have h2 := hle₁ i
    rw [List.countP_cons]
    omega

end SignalRuntime

end Miniss
