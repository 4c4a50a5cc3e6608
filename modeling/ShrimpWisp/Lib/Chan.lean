import Mathlib.Tactic.Common

/-!
# Bounded FIFO channels

A channel with `cap` slots: senders append at the back while a slot is free, the receiver takes
from the front. The bound is part of the type, so no state of a model can hold an overfull
channel.

* `Chan.trySend`: `none` if the channel is full. A blocking send is a `trySend` that is retried.
* `Chan.tryRecv`: `none` if the channel is empty.
* `Chan.drain`: the channel after its receiver took all items at once.
-/

namespace ShrimpWisp

/-- A channel of `α` with at most `cap` queued items, the oldest first. -/
structure Chan (cap : Nat) (α : Type) where
  items : List α
  bounded : items.length ≤ cap

namespace Chan

variable {cap : Nat} {α : Type}

/-- The empty channel. -/
def empty : Chan cap α := ⟨[], Nat.zero_le _⟩

/-- Append `x`, if a slot is free. -/
def trySend (c : Chan cap α) (x : α) : Option (Chan cap α) :=
  if h : c.items.length < cap then some ⟨c.items ++ [x], by rw [List.length_append]; exact h⟩ else none

/-- The oldest item and the rest. -/
def tryRecv (c : Chan cap α) : Option (α × Chan cap α) :=
  match h : c.items with
  | [] => none
  | x :: xs => some (x, ⟨xs, by have := c.bounded; rw [h] at this; simp at this; omega⟩)

/-- All items are taken. -/
def drain (_ : Chan cap α) : Chan cap α := empty

@[simp] theorem items_empty : (empty : Chan cap α).items = [] := rfl

@[simp] theorem items_drain (c : Chan cap α) : c.drain.items = [] := rfl

@[ext] theorem ext {c d : Chan cap α} (h : c.items = d.items) : c = d := by
  cases c; cases d; cases h; rfl

theorem trySend_some {c d : Chan cap α} {x : α} (h : c.trySend x = some d) :
    d.items = c.items ++ [x] ∧ c.items.length < cap := by
  unfold trySend at h
  split at h
  · cases h; exact ⟨rfl, ‹_›⟩
  · cases h

theorem trySend_none {c : Chan cap α} {x : α} : c.trySend x = none ↔ c.items.length = cap := by
  unfold trySend
  have := c.bounded
  split
  · simp; omega
  · simp; omega

theorem tryRecv_some {c d : Chan cap α} {x : α} (h : c.tryRecv = some (x, d)) :
    c.items = x :: d.items := by
  unfold tryRecv at h
  split at h
  · cases h
  · rename_i hc; cases h; exact hc

theorem tryRecv_none {c : Chan cap α} : c.tryRecv = none ↔ c.items = [] := by
  unfold tryRecv
  split
  · rename_i hc; simp [hc]
  · rename_i hc; simp [hc]

end Chan

end ShrimpWisp
