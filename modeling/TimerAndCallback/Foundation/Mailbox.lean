import Mathlib

/-! # Mailboxes in one list of messages

A list of addressed messages, in the order they were sent, holds one first-in,
first-out mailbox for each receiver. Sending at the end of the list sends to the end of
one mailbox, and taking the oldest message of a receiver out of the list takes the
front of that mailbox; the other mailboxes do not change.
-/

namespace Mailbox

universe u v

variable {Message : Type u} {Receiver : Type v} [DecidableEq Receiver]
variable (address : Message → Receiver)

/-- The messages to a receiver, oldest first. -/
def mailbox (messages : List Message) (receiver : Receiver) : List Message :=
  messages.filter fun message => decide (address message = receiver)

/-- The place of the oldest message to a receiver. -/
def oldest (messages : List Message) (receiver : Receiver) : Nat :=
  messages.findIdx fun message => decide (address message = receiver)

variable {address} {messages rest : List Message} {first message : Message}
variable {receiver other : Receiver}

@[simp] theorem mailbox_nil : mailbox address [] receiver = [] := rfl

/-- A mailbox of two lists is the mailbox of one after the other. -/
theorem mailbox_append (more : List Message) : mailbox address (messages ++ more) receiver =
    mailbox address messages receiver ++ mailbox address more receiver := List.filter_append _ _

/-- A first message for the receiver is first in the mailbox. -/
theorem mailbox_cons_self (addressed : address first = receiver) :
    mailbox address (first :: rest) receiver = first :: mailbox address rest receiver :=
  List.filter_cons_of_pos (decide_eq_true addressed)

/-- A first message for another receiver is not in the mailbox. -/
theorem mailbox_cons_other (different : address first ≠ receiver) :
    mailbox address (first :: rest) receiver = mailbox address rest receiver :=
  List.filter_cons_of_neg (by rwa [decide_eq_true_eq])

private theorem oldest_cons_self (addressed : address first = receiver) :
    oldest address (first :: rest) receiver = 0 := by
  rw [oldest, List.findIdx_cons, decide_eq_true addressed, cond_true]

private theorem oldest_cons_other (different : address first ≠ receiver) :
    oldest address (first :: rest) receiver = oldest address rest receiver + 1 := by
  rw [oldest, List.findIdx_cons, decide_eq_false different, cond_false]
  rfl

/-- A single message is in the mailbox of its receiver. -/
theorem mailbox_singleton_self : mailbox address [message] (address message) = [message] :=
  mailbox_cons_self rfl

/-- A single message is in no other mailbox. -/
theorem mailbox_singleton_other (different : address message ≠ receiver) :
    mailbox address [message] receiver = [] := mailbox_cons_other different

/-- The front of a mailbox is addressed to the receiver. -/
theorem address_of_front (front : mailbox address messages receiver = first :: rest) :
    address first = receiver := by
  have member : first ∈ mailbox address messages receiver := front ▸ List.mem_cons_self
  exact of_decide_eq_true (List.mem_filter.mp member).2

/-- The front of a mailbox is the message at the place of the oldest. -/
theorem getElem?_oldest (front : mailbox address messages receiver = first :: rest) :
    messages[oldest address messages receiver]? = some first := by
  induction messages with
  | nil => cases front
  | cons head tail ih =>
      by_cases addressed : address head = receiver
      · rw [mailbox_cons_self addressed] at front
        rw [oldest_cons_self addressed, List.getElem?_cons_zero, (List.cons.inj front).1]
      · rw [mailbox_cons_other addressed] at front
        rw [oldest_cons_other addressed, List.getElem?_cons_succ]
        exact ih front

/-- Taking the oldest message out shortens its mailbox by the front. -/
theorem mailbox_eraseIdx_oldest (front : mailbox address messages receiver = first :: rest) :
    mailbox address (messages.eraseIdx (oldest address messages receiver)) receiver = rest := by
  induction messages with
  | nil => cases front
  | cons head tail ih =>
      by_cases addressed : address head = receiver
      · rw [mailbox_cons_self addressed] at front
        rw [oldest_cons_self addressed, List.eraseIdx_cons_zero, (List.cons.inj front).2]
      · rw [mailbox_cons_other addressed] at front
        rw [oldest_cons_other addressed, List.eraseIdx_cons_succ, mailbox_cons_other addressed]
        exact ih front

/-- Taking out a message does not change the mailbox of another receiver. -/
theorem mailbox_eraseIdx_other {position : Nat} (found : messages[position]? = some message)
    (different : address message ≠ other) :
    mailbox address (messages.eraseIdx position) other = mailbox address messages other := by
  obtain ⟨bound, rfl⟩ := List.getElem?_eq_some_iff.mp found
  have split := List.take_append_drop position messages
  rw [List.drop_eq_getElem_cons bound] at split
  conv_rhs => rw [← split]
  rw [List.eraseIdx_eq_take_drop_succ, mailbox_append, mailbox_append,
    mailbox_cons_other different]

end Mailbox
