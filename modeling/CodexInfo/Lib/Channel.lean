import Mathlib.Data.List.Basic

/-!
# `CodexInfo.Lib.Channel`: bounded channels between two parties

A channel holds at most `capacity` messages, in the order in which they were sent. Its two ends
are dropped separately, each once.

* `trySend`, `tryRecv`: the calls that never wait, with their two errors.
* `send`, `recv`: the calls that wait. They give no result while the caller is blocked.
* `dropSender`, `dropReceiver`: a dropped receiver discards what the channel holds.

Nothing here names a component of the repository.
-/

set_option autoImplicit false

namespace CodexInfo.Lib

structure Channel (α : Type) where
  capacity : Nat
  queue : List α
  within : queue.length ≤ capacity
  /-- Whether the sending end is held. -/
  sender : Bool
  /-- Whether the receiving end is held. -/
  receiver : Bool
  deriving DecidableEq

inductive TrySendError where
  | full
  | disconnected
  deriving DecidableEq, Repr

inductive TryRecvError where
  | empty
  | disconnected
  deriving DecidableEq, Repr

namespace Channel

variable {α : Type}

/-- An open channel without messages. -/
def empty (capacity : Nat) : Channel α := ⟨capacity, [], Nat.zero_le _, true, true⟩

def trySend (channel : Channel α) (message : α) : Except TrySendError (Channel α) :=
  if channel.receiver then
    if h : channel.queue.length < channel.capacity then
      .ok { channel with
        queue := channel.queue ++ [message]
        within := by simpa using Nat.succ_le_of_lt h }
    else .error .full
  else .error .disconnected

/-- The messages that a dropped sender left are still received. -/
def tryRecv : Channel α → Except TryRecvError (α × Channel α)
  | ⟨capacity, message :: rest, within, sender, receiver⟩ =>
      .ok (message, ⟨capacity, rest, Nat.le_of_succ_le within, sender, receiver⟩)
  | ⟨_, [], _, sender, _⟩ => if sender then .error .empty else .error .disconnected

/-- `none` while the sender is blocked, `some none` when there is no receiver. -/
def send (channel : Channel α) (message : α) : Option (Option (Channel α)) :=
  match channel.trySend message with
  | .ok next => some (some next)
  | .error .full => none
  | .error .disconnected => some none

/-- `none` while the receiver is blocked, `some none` when there is no sender. -/
def recv (channel : Channel α) : Option (Option (α × Channel α)) :=
  match channel.tryRecv with
  | .ok received => some (some received)
  | .error .empty => none
  | .error .disconnected => some none

def dropSender (channel : Channel α) : Channel α := { channel with sender := false }

def dropReceiver (channel : Channel α) : Channel α :=
  { channel with queue := [], within := Nat.zero_le _, receiver := false }

@[simp] theorem empty_queue (capacity : Nat) : (empty capacity : Channel α).queue = [] := rfl
@[simp] theorem empty_sender (capacity : Nat) : (empty capacity : Channel α).sender = true := rfl
@[simp] theorem empty_receiver (capacity : Nat) :
    (empty capacity : Channel α).receiver = true := rfl
@[simp] theorem empty_capacity (capacity : Nat) :
    (empty capacity : Channel α).capacity = capacity := rfl
@[simp] theorem dropSender_queue (c : Channel α) : c.dropSender.queue = c.queue := rfl
@[simp] theorem dropSender_sender (c : Channel α) : c.dropSender.sender = false := rfl
@[simp] theorem dropSender_receiver (c : Channel α) : c.dropSender.receiver = c.receiver := rfl
@[simp] theorem dropSender_capacity (c : Channel α) : c.dropSender.capacity = c.capacity := rfl
@[simp] theorem dropReceiver_queue (c : Channel α) : c.dropReceiver.queue = [] := rfl
@[simp] theorem dropReceiver_sender (c : Channel α) : c.dropReceiver.sender = c.sender := rfl
@[simp] theorem dropReceiver_receiver (c : Channel α) : c.dropReceiver.receiver = false := rfl
@[simp] theorem dropReceiver_capacity (c : Channel α) :
    c.dropReceiver.capacity = c.capacity := rfl

/-! ### What each call can do -/

/-- The next state after a message was sent. -/
structure Sent (channel : Channel α) (message : α) (next : Channel α) : Prop where
  room : channel.queue.length < channel.capacity
  held : channel.receiver = true
  queue : next.queue = channel.queue ++ [message]
  sender : next.sender = channel.sender
  receiver : next.receiver = channel.receiver
  capacity : next.capacity = channel.capacity

/-- The next state after a message was received. -/
structure Received (channel : Channel α) (message : α) (next : Channel α) : Prop where
  queue : channel.queue = message :: next.queue
  sender : next.sender = channel.sender
  receiver : next.receiver = channel.receiver
  capacity : next.capacity = channel.capacity

theorem trySend_cases (channel : Channel α) (message : α) :
    (∃ next, channel.trySend message = .ok next ∧ channel.Sent message next) ∨
      (channel.trySend message = .error .full ∧ channel.receiver = true ∧
        channel.queue.length = channel.capacity) ∨
      (channel.trySend message = .error .disconnected ∧ channel.receiver = false) := by
  unfold trySend
  by_cases hreceiver : channel.receiver = true
  · rw [if_pos hreceiver]
    by_cases hroom : channel.queue.length < channel.capacity
    · rw [dif_pos hroom]
      exact .inl ⟨_, rfl, hroom, hreceiver, rfl, rfl, rfl, rfl⟩
    · rw [dif_neg hroom]
      exact .inr (.inl ⟨rfl, hreceiver, Nat.le_antisymm channel.within (Nat.le_of_not_lt hroom)⟩)
  · rw [if_neg hreceiver]
    exact .inr (.inr ⟨rfl, Bool.eq_false_iff.mpr hreceiver⟩)

theorem tryRecv_cases (channel : Channel α) :
    (∃ message next, channel.tryRecv = .ok (message, next) ∧ channel.Received message next) ∨
      (channel.tryRecv = .error .empty ∧ channel.queue = [] ∧ channel.sender = true) ∨
      (channel.tryRecv = .error .disconnected ∧ channel.queue = [] ∧
        channel.sender = false) := by
  obtain ⟨capacity, queue, within, sender, receiver⟩ := channel
  cases queue with
  | cons message rest => exact .inl ⟨message, _, rfl, rfl, rfl, rfl, rfl⟩
  | nil =>
      cases sender with
      | true => exact .inr (.inl ⟨rfl, rfl, rfl⟩)
      | false => exact .inr (.inr ⟨rfl, rfl, rfl⟩)

theorem send_cases (channel : Channel α) (message : α) :
    (∃ next, channel.send message = some (some next) ∧ channel.Sent message next) ∨
      (channel.send message = none ∧ channel.receiver = true ∧
        channel.queue.length = channel.capacity) ∨
      (channel.send message = some none ∧ channel.receiver = false) := by
  unfold send
  rcases channel.trySend_cases message with ⟨next, hsend, hsent⟩ | ⟨hsend, h⟩ | ⟨hsend, h⟩
  · rw [hsend]
    exact .inl ⟨next, rfl, hsent⟩
  · rw [hsend]
    exact .inr (.inl ⟨rfl, h⟩)
  · rw [hsend]
    exact .inr (.inr ⟨rfl, h⟩)

theorem recv_cases (channel : Channel α) :
    (∃ message next, channel.recv = some (some (message, next)) ∧
        channel.Received message next) ∨
      (channel.recv = none ∧ channel.queue = [] ∧ channel.sender = true) ∨
      (channel.recv = some none ∧ channel.queue = [] ∧ channel.sender = false) := by
  unfold recv
  rcases channel.tryRecv_cases with ⟨message, next, hrecv, hreceived⟩ | ⟨hrecv, h⟩ | ⟨hrecv, h⟩
  · rw [hrecv]
    exact .inl ⟨message, next, rfl, hreceived⟩
  · rw [hrecv]
    exact .inr (.inl ⟨rfl, h⟩)
  · rw [hrecv]
    exact .inr (.inr ⟨rfl, h⟩)

end Channel

end CodexInfo.Lib
