import Mathlib

/-!
# Channels

A multi-producer channel as the receiving side sees it: the messages sent and
not yet received, in order, and whether a sender is still alive. Sending puts a
message at the back; `tryRecv` takes the front one, and when there is none
tells an empty channel (`empty`), which a live sender may still fill, from a
disconnected one (`disconnected`), which no message will ever reach again.
Messages sent before the last sender went away are still received, in order,
before the channel reports itself disconnected.

Blocking is not modelled: a send into a full bounded channel is not taken.

* `tryRecv_send_dropSender`: a single message sent just before the sender
  goes away is received once, after which the channel is disconnected;
* `tryRecv_of_disconnected`: receiving from a disconnected channel changes
  nothing.
-/

namespace Miniss

/-- Why `tryRecv` returned no message. -/
inductive TryRecvError where
  | empty
  | disconnected
  deriving DecidableEq, Repr

/-- A channel: its buffer, front first, and whether a sender is alive. -/
structure Chan (α : Type*) where
  buffer : List α
  senderAlive : Bool

namespace Chan

variable {α : Type*}

/-- A new channel, empty, with its sender. -/
def new : Chan α := ⟨[], true⟩

/-- Sending a message. -/
def send (c : Chan α) (a : α) : Chan α := { c with buffer := c.buffer ++ [a] }

/-- Dropping the (last) sender. -/
def dropSender (c : Chan α) : Chan α := { c with senderAlive := false }

/-- Receiving without blocking: the front message, or why there is none. -/
def tryRecv (c : Chan α) : Except TryRecvError α × Chan α :=
  match c.buffer with
  | a :: rest => (.ok a, { c with buffer := rest })
  | [] => (.error (if c.senderAlive then .empty else .disconnected), c)

/-- A channel no message will reach any more: empty, without a sender. -/
def Disconnected (c : Chan α) : Prop := c.buffer = [] ∧ c.senderAlive = false

variable {c : Chan α} {a : α}

@[simp] theorem send_senderAlive : (c.send a).senderAlive = c.senderAlive := rfl
@[simp] theorem send_buffer : (c.send a).buffer = c.buffer ++ [a] := rfl
@[simp] theorem dropSender_senderAlive : c.dropSender.senderAlive = false := rfl
@[simp] theorem dropSender_buffer : c.dropSender.buffer = c.buffer := rfl

theorem tryRecv_of_cons {rest : List α} (h : c.buffer = a :: rest) :
    c.tryRecv = (.ok a, { c with buffer := rest }) := by
  rw [tryRecv, h]

theorem tryRecv_of_nil (h : c.buffer = []) :
    c.tryRecv = (.error (if c.senderAlive then .empty else .disconnected), c) := by
  rw [tryRecv, h]

/-- A disconnected channel reports it, and stays as it is. -/
theorem tryRecv_of_disconnected (h : c.Disconnected) : c.tryRecv = (.error .disconnected, c) := by
  rw [tryRecv_of_nil h.1, h.2]
  rfl

/-- An empty channel whose sender is alive reports it, and stays as it is. -/
theorem tryRecv_of_empty (h : c.buffer = []) (ha : c.senderAlive = true) :
    c.tryRecv = (.error .empty, c) := by
  rw [tryRecv_of_nil h, ha]
  rfl

/-- Receiving from an empty channel changes nothing. -/
theorem tryRecv_snd_of_nil (h : c.buffer = []) : c.tryRecv.2 = c := by
  rw [tryRecv_of_nil h]

/-- Receiving leaves the sender as it was. -/
@[simp] theorem tryRecv_senderAlive : c.tryRecv.2.senderAlive = c.senderAlive := by
  unfold tryRecv
  split <;> rfl

/-- One message sent into an empty channel just before its sender goes away is
    received, and leaves the channel disconnected. -/
theorem tryRecv_send_dropSender (h : c.buffer = []) :
    ((c.send a).dropSender).tryRecv = (.ok a, ⟨[], false⟩) := by
  have hb : ((c.send a).dropSender).buffer = [a] := by simp [h]
  rw [tryRecv_of_cons hb]
  rfl

end Chan

end Miniss
