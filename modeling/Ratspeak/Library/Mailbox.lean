import Mathlib.Data.List.Basic

/-!
# Mailboxes

A channel of bounded capacity from many senders to one receiver.  A sender
either tries once, and is turned away where there is no place, or it waits.
Places are given to those who wait in the order in which they came, so a
sender that tries finds no place while somebody waits for it.
-/

namespace Ratspeak.Library

structure Mailbox (capacity : Nat) (Message : Type) where
  queue : List Message
  waiting : List Message
  within : queue.length ≤ capacity

namespace Mailbox

variable {capacity : Nat} {Message : Type}

def empty : Mailbox capacity Message where
  queue := []
  waiting := []
  within := Nat.zero_le capacity

theorem length_concat_le {queue : List Message} (message : Message)
    (free : queue.length < capacity) :
    (queue ++ [message]).length ≤ capacity := by
  rw [List.length_append]
  exact free

/-- Send now or not at all. -/
def trySend (message : Message) (mailbox : Mailbox capacity Message) :
    Option (Mailbox capacity Message) :=
  if free : mailbox.queue.length + mailbox.waiting.length < capacity then
    some
      { mailbox with
        queue := mailbox.queue ++ [message]
        within := length_concat_le message (Nat.lt_of_le_of_lt (Nat.le_add_right _ _) free) }
  else none

/-- Begin to wait for a place. -/
def send (message : Message) (mailbox : Mailbox capacity Message) :
    Mailbox capacity Message :=
  { mailbox with waiting := mailbox.waiting ++ [message] }

/-- One who waits takes the place that is kept for it. -/
def enter (index : Nat) (mailbox : Mailbox capacity Message) :
    Mailbox capacity Message :=
  match mailbox.waiting[index]? with
  | none => mailbox
  | some message =>
      if free : mailbox.queue.length + index < capacity then
        { queue := mailbox.queue ++ [message]
          waiting := mailbox.waiting.eraseIdx index
          within := length_concat_le message (Nat.lt_of_le_of_lt (Nat.le_add_right _ _) free) }
      else mailbox

/-- One who waits gives up. -/
def leave (index : Nat) (mailbox : Mailbox capacity Message) :
    Mailbox capacity Message :=
  { mailbox with waiting := mailbox.waiting.eraseIdx index }

/-- Take the oldest message. -/
def receive (mailbox : Mailbox capacity Message) :
    Option (Message × Mailbox capacity Message) :=
  match mailbox with
  | ⟨[], _, _⟩ => none
  | ⟨message :: rest, waiting, within⟩ =>
      some (message, ⟨rest, waiting, Nat.le_of_succ_le within⟩)

theorem trySend_some {message : Message} {mailbox after : Mailbox capacity Message}
    (sent : mailbox.trySend message = some after) :
    after.queue = mailbox.queue ++ [message] ∧
      after.waiting = mailbox.waiting := by
  rw [trySend] at sent
  split at sent
  · cases sent
    exact ⟨rfl, rfl⟩
  · cases sent

theorem enter_cases (index : Nat) (mailbox : Mailbox capacity Message) :
    mailbox.enter index = mailbox ∨
      ∃ message ∈ mailbox.waiting,
        (mailbox.enter index).queue = mailbox.queue ++ [message] ∧
        (mailbox.enter index).waiting =
          mailbox.waiting.eraseIdx index := by
  rw [enter]
  split
  · exact Or.inl rfl
  · rename_i message isThere
    split
    · exact Or.inr ⟨message, List.mem_of_getElem? isThere, rfl, rfl⟩
    · exact Or.inl rfl

theorem receive_some {message : Message} {mailbox after : Mailbox capacity Message}
    (received : mailbox.receive = some (message, after)) :
    mailbox.queue = message :: after.queue ∧
      after.waiting = mailbox.waiting := by
  rcases mailbox with ⟨queue, waiting, within⟩
  cases queue with
  | nil => cases received
  | cons first rest =>
      cases received
      exact ⟨rfl, rfl⟩

end Mailbox

end Ratspeak.Library
