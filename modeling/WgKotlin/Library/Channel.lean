import Mathlib.Data.List.Infix
import Mathlib.Data.List.TakeDrop

/-!
# First-in, first-out channels

A channel is all that was ever sent on it and how much of that has been received,
so its order is part of the type: what was received is a prefix of what was sent.
`Relays` is the invariant of a process that takes items from one place and passes
them on to another, and that may stop at any time with an item in its hands.
-/

namespace WgKotlin
namespace Library

variable {α β : Type}

structure Channel (α : Type) where
  sent : List α
  received : Nat
  received_le : received ≤ sent.length

namespace Channel

def empty : Channel α where
  sent := []
  received := 0
  received_le := Nat.le_refl 0

/-- What was received. -/
def delivered (c : Channel α) : List α := c.sent.take c.received

/-- What is still to be received. -/
def queue (c : Channel α) : List α := c.sent.drop c.received

def send (c : Channel α) (a : α) : Channel α where
  sent := c.sent ++ [a]
  received := c.received
  received_le := by
    have hle := c.received_le
    rw [List.length_append]
    omega

def receive (c : Channel α) : Option (α × Channel α) :=
  if h : c.received < c.sent.length then
    some (c.sent[c.received], { c with received := c.received + 1, received_le := h })
  else none

@[simp] theorem sent_empty : (empty : Channel α).sent = [] := rfl

@[simp] theorem delivered_empty : (empty : Channel α).delivered = [] := rfl

@[simp] theorem sent_send (c : Channel α) (a : α) : (c.send a).sent = c.sent ++ [a] := rfl

/-- What is sent is not received at once. -/
@[simp] theorem delivered_send (c : Channel α) (a : α) : (c.send a).delivered = c.delivered :=
  List.take_append_of_le_length c.received_le

theorem delivered_isPrefix (c : Channel α) : c.delivered <+: c.sent :=
  List.take_prefix c.received c.sent

/-- The next item is the oldest that was not yet received. -/
theorem receive_eq_some {c c' : Channel α} {a : α} (h : c.receive = some (a, c')) :
    c'.sent = c.sent ∧ c'.delivered = c.delivered ++ [a] ∧ c.queue = a :: c'.queue := by
  obtain ⟨sent, received, hle⟩ := c
  unfold receive at h
  split at h
  next hlt =>
    cases h
    refine ⟨rfl, ?_, ?_⟩
    · exact (List.take_concat_get' sent received hlt).symm
    · exact List.drop_eq_getElem_cons hlt
  · cases h

theorem sent_of_receive {c c' : Channel α} {a : α} (h : c.receive = some (a, c')) :
    c'.sent = c.sent := (receive_eq_some h).1

theorem delivered_of_receive {c c' : Channel α} {a : α} (h : c.receive = some (a, c')) :
    c'.delivered = c.delivered ++ [a] := (receive_eq_some h).2.1

theorem getElem?_of_receive {c c' : Channel α} {a : α} (h : c.receive = some (a, c')) :
    c.sent[c.received]? = some a ∧ c'.received = c.received + 1 := by
  unfold receive at h
  split at h
  next hlt =>
    cases h
    exact ⟨List.getElem?_eq_getElem hlt, rfl⟩
  · cases h

end Channel

/-! ### Processes between two channels -/

/-- What a process has passed on, what it has taken, and what it holds in between;
nothing is known of that once it has stopped. -/
def Relays (passed taken : List α) : Option (List α) → Prop
  | none => passed <+: taken
  | some held => passed ++ held = taken

namespace Relays

variable {passed taken items : List α} {held : Option (List α)}

theorem follows (h : Relays passed taken held) : passed <+: taken := by
  cases held with
  | none => exact h
  | some held => exact ⟨held, h⟩

/-- A process that holds nothing takes items. -/
theorem take (h : Relays passed taken (some [])) (items : List α) :
    Relays passed (taken ++ items) (some items) := by
  have hall : passed ++ [] = taken := h
  rw [List.append_nil] at hall
  show passed ++ items = taken ++ items
  rw [hall]

/-- It passes on what it holds. -/
theorem pass (h : Relays passed taken (some items)) :
    Relays (passed ++ items) taken (some []) := by
  have hall : passed ++ items = taken := h
  show passed ++ items ++ [] = taken
  rw [List.append_nil, hall]

theorem stop (h : Relays passed taken held) : Relays passed taken none := h.follows

/-- What a process took last may be lost with it. -/
theorem lose (h : Relays passed taken held) (items : List α) :
    Relays passed (taken ++ items) none :=
  h.follows.trans (List.prefix_append taken items)

end Relays

end Library
end WgKotlin
