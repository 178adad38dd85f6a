import Mathlib.Data.List.Basic

/-!
# Bounded mailboxes whose messages replace a value

A receiver holds a value and reads its messages one at a time; a message may carry a replacement of
the value. The sender offers a message to a mailbox of limited capacity and does not wait: an offer
to a full mailbox is dropped. What the receiver will end up with, once it has read everything, is
the value it holds followed by the replacements that wait.
-/

universe u v

namespace Mailbox

variable {Message : Type u} {Value : Type v}

/-- A message offered without waiting. -/
def offer (capacity : ℕ) (waiting : List Message) (message : Message) : List Message :=
  if waiting.length < capacity then waiting ++ [message] else waiting

/-- The value held after reading the messages. -/
def settle (replacement : Message → Option Value) (value : Value) (waiting : List Message) :
    Value :=
  waiting.foldl (fun held message => (replacement message).getD held) value

variable {replacement : Message → Option Value} {capacity : ℕ} {value : Value}
  {waiting : List Message} {message : Message}

@[simp]
theorem settle_nil : settle replacement value [] = value :=
  rfl

@[simp]
theorem settle_cons : settle replacement value (message :: waiting) =
    settle replacement ((replacement message).getD value) waiting :=
  rfl

@[simp]
theorem settle_append_singleton : settle replacement value (waiting ++ [message]) =
    (replacement message).getD (settle replacement value waiting) := by
  simp [settle]

theorem length_offer (bounded : waiting.length ≤ capacity) :
    (offer capacity waiting message).length ≤ capacity := by
  unfold offer
  split
  · simp only [List.length_append, List.length_singleton]
    omega
  · exact bounded

theorem settle_offer_of_room (room : waiting.length < capacity) :
    settle replacement value (offer capacity waiting message) =
      (replacement message).getD (settle replacement value waiting) := by
  rw [offer, if_pos room, settle_append_singleton]

/-- A message that replaces nothing makes no difference, dropped or not. -/
theorem settle_offer_of_none (carriesNone : replacement message = none) :
    settle replacement value (offer capacity waiting message) =
      settle replacement value waiting := by
  unfold offer
  split
  · rw [settle_append_singleton, carriesNone, Option.getD_none]
  · rfl

/-- A replacement takes effect when there is room for it or nothing to replace. -/
theorem settle_offer_eq_iff {replaced : Value} (carries : replacement message = some replaced) :
    settle replacement value (offer capacity waiting message) = replaced ↔
      waiting.length < capacity ∨ settle replacement value waiting = replaced := by
  by_cases room : waiting.length < capacity
  · rw [settle_offer_of_room room, carries, Option.getD_some]
    simp [room]
  · rw [offer, if_neg room]
    simp [room]

end Mailbox
