import Mathlib

/-!
# The timer wheel

`TimerWheel` (`src/timer/mod.rs`): a circular buffer of `num_slots` slots, each
a queue of entries — a `TimerId` and the waker to wake —, a resolution in
milliseconds, the slot the wheel stands on, and the instant it was created.

A timer for the instant `t` goes at the back of the slot of its *slot offset*,
the number of whole resolutions from the creation of the wheel to `t`, reduced
modulo the number of slots (`calculateSlot`). `expire` walks the wheel from its
current slot to the slot of `now`, popping the entries of every slot it passes
and pushing their wakers onto `ready`; once `now` lies a full rotation or more
from the creation of the wheel, it sweeps the whole wheel instead.

Time is counted in nanoseconds on the monotonic clock: the duration between two
instants is their difference, saturating at `0`, and `as_millis` truncates it to
whole milliseconds. The cast `as u64` of those milliseconds (a `u128`) reduces
them modulo `2 ^ 64`; `as usize` on a `u64` is the identity on the 64-bit
targets.

Wakers are left abstract (`W`). `TIMER_COUNTER`, the global counter
`TimerId::new` draws from, is passed and returned explicitly; it is a plain
number, as wrapping round `2 ^ 64` takes `2 ^ 64` calls.

A wheel `TimerWheel::new(n, r)` with `n ≥ 1` and `r ≥ 1` is `Valid`; with
`n = 0` or `r = 0` the first `schedule` or `expire` divides by zero and panics,
a case the theorems about the wheel exclude.
-/

namespace Miniss

/-- An instant of the monotonic clock, in nanoseconds. -/
abbrev Instant := Nat

/-- `Instant::saturating_duration_since`: the nanoseconds from `earlier` to `self`, or `0`. -/
def saturatingDurationSince (self earlier : Instant) : Nat := self - earlier

/-- `Duration::as_millis`: the whole milliseconds of a duration. -/
def asMillis (d : Nat) : Nat := d / 1000000

/-- The cast `as u64`. -/
def asU64 (x : Nat) : Nat := x % 2 ^ 64

/-- A unique identifier for a timer: a `u64` drawn from `TIMER_COUNTER`. -/
structure TimerId where
  val : Nat
  deriving DecidableEq, Repr

/-- `TimerId::new`: the value of the counter, which moves on by one. -/
def TimerId.new (counter : Nat) : TimerId × Nat := (⟨counter⟩, counter + 1)

/-- An entry of the wheel: a timer and its waker. -/
structure Entry (W : Type*) where
  id : TimerId
  waker : W

/-- The state of a `TimerWheel`. -/
structure TimerWheel (W : Type*) where
  slots : List (List (Entry W))
  resolutionMs : Nat
  numSlots : Nat
  currentSlot : Nat
  startTime : Instant

namespace TimerWheel

variable {W : Type*}

/-- `TimerWheel::new(num_slots, resolution_ms)`, created at the instant `now`. -/
def new (numSlots resolutionMs : Nat) (now : Instant) : TimerWheel W where
  slots := List.replicate numSlots []
  resolutionMs := resolutionMs
  numSlots := numSlots
  currentSlot := 0
  startTime := now

/-- The whole resolutions from the creation of the wheel to `t`: the `slot_offset`
    of `calculate_slot`, and the `target_slot_offset` of `expire`. -/
def slotOffset (w : TimerWheel W) (t : Instant) : Nat :=
  asU64 (asMillis (saturatingDurationSince t w.startTime)) / w.resolutionMs

/-- `TimerWheel::calculate_slot`: the slot for a timer at `t`. -/
def calculateSlot (w : TimerWheel W) (t : Instant) : Nat := w.slotOffset t % w.numSlots

/-- `TimerWheel::schedule`: a fresh `TimerId` from the counter, and an entry for it
    at the back of the slot of `t`. -/
def schedule (w : TimerWheel W) (t : Instant) (waker : W) (counter : Nat) :
    TimerWheel W × TimerId × Nat :=
  let (timerId, counter) := TimerId.new counter
  let slotIndex := w.calculateSlot t
  ({ w with slots := w.slots.modify slotIndex (· ++ [⟨timerId, waker⟩]) }, timerId, counter)

/-- The loop of `cancel` over the slots: in the first slot holding an entry with
    the id, remove the first such entry. -/
def cancelSlots (id : TimerId) : List (List (Entry W)) → Option (List (List (Entry W)))
  | [] => none
  | slot :: slots =>
    match slot.findIdx? (·.id == id) with
    | some pos => some (slot.eraseIdx pos :: slots)
    | none => (cancelSlots id slots).map (slot :: ·)

/-- `TimerWheel::cancel`: whether an entry with the id was found and removed. -/
def cancel (w : TimerWheel W) (id : TimerId) : TimerWheel W × Bool :=
  match cancelSlots id w.slots with
  | some slots => ({ w with slots }, true)
  | none => (w, false)

/-- Popping every entry of the current slot: the entries, front to back, and the
    wheel with the slot left empty. -/
def drainCurrent (w : TimerWheel W) : List (Entry W) × TimerWheel W :=
  (w.slots.getD w.currentSlot [], { w with slots := w.slots.set w.currentSlot [] })

/-- Moving on to the next slot, round the wheel. -/
def advance (w : TimerWheel W) : TimerWheel W :=
  { w with currentSlot := (w.currentSlot + 1) % w.numSlots }

/-- The `for _ in 0..self.num_slots` loop of `expire`, for `k` rounds: empty the
    current slot, move on. -/
def sweepSlots : Nat → TimerWheel W → List (Entry W) × TimerWheel W
  | 0, w => ([], w)
  | k + 1, w =>
    let r := sweepSlots k w.drainCurrent.2.advance
    (w.drainCurrent.1 ++ r.1, r.2)

/-- The `while` loop of `expire`, for at most `fuel` rounds: the entries popped, in
    order, and the wheel left; `none` if the rounds run out. -/
def expireLoop (targetSlotOffset targetSlot : Nat) :
    Nat → TimerWheel W → Option (List (Entry W) × TimerWheel W)
  | 0, _ => none
  | fuel + 1, w =>
    if w.currentSlot ≠ targetSlot ∨ targetSlotOffset ≥ w.numSlots then
      let w' := w.drainCurrent.2.advance
      if targetSlotOffset ≥ w'.numSlots then
        -- More than a full rotation from the start: sweep the whole wheel, and stop.
        let r := w'.sweepSlots w'.numSlots
        some (w.drainCurrent.1 ++ r.1, r.2)
      else
        (expireLoop targetSlotOffset targetSlot fuel w').map fun r => (w.drainCurrent.1 ++ r.1, r.2)
    else some ([], w)

/-- The `while` loop of `expire` run from the current slot towards the slot of
    `now`, given `num_slots + 1` rounds, which it never exhausts on a valid wheel
    (`popExpired_eq`): the entries popped, in order, and the wheel left. -/
def popExpired (w : TimerWheel W) (now : Instant) : Option (List (Entry W) × TimerWheel W) :=
  let targetSlotOffset := w.slotOffset now
  let targetSlot := targetSlotOffset % w.numSlots
  w.expireLoop targetSlotOffset targetSlot (w.numSlots + 1)

/-- `TimerWheel::expire`: the wheel left, and `ready` with the wakers of the popped
    entries pushed in order. -/
def expire (w : TimerWheel W) (now : Instant) (ready : List W) : Option (TimerWheel W × List W) :=
  (w.popExpired now).map fun r => (r.2, ready ++ r.1.map (·.waker))

/-- `TimerWheel::pending_count`: the entries across all slots. -/
def pendingCount (w : TimerWheel W) : Nat := (w.slots.map List.length).sum

/-- A wheel as `new` builds it with at least one slot and a positive resolution,
    and as every operation leaves it. -/
structure Valid (w : TimerWheel W) : Prop where
  numSlots_pos : 0 < w.numSlots
  resolutionMs_pos : 0 < w.resolutionMs
  length_slots : w.slots.length = w.numSlots
  currentSlot_lt : w.currentSlot < w.numSlots

end TimerWheel

end Miniss
