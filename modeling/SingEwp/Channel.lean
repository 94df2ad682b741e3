import Mathlib.Data.List.Basic
import Mathlib.Tactic

/-!
# First-in, first-out channels

The abstract channel that a transport is meant to be: a list of what has been
sent and how much of it has been taken.  A channel moves by sending and by
taking the next item, so what has been taken is always a prefix of what has been
sent.
-/

namespace SingEwp

variable {α : Type}

/-- A channel never runs ahead of its sender. -/
structure Fifo (α : Type) where
  sent : List α
  taken : ℕ
  taken_le : taken ≤ sent.length

namespace Fifo

def empty : Fifo α := ⟨[], 0, le_rfl⟩

def delivered (q : Fifo α) : List α := q.sent.take q.taken

def push (q : Fifo α) (items : List α) : Fifo α :=
  ⟨q.sent ++ items, q.taken, by simpa using Nat.le_add_right_of_le q.taken_le⟩

def pop (q : Fifo α) (h : q.taken < q.sent.length) : Fifo α :=
  ⟨q.sent, q.taken + 1, h⟩

theorem delivered_isPrefix (q : Fifo α) : q.delivered <+: q.sent :=
  List.take_prefix _ _

@[simp] theorem delivered_push (q : Fifo α) (items : List α) :
    (q.push items).delivered = q.delivered := by
  simp [delivered, push, List.take_append_of_le_length q.taken_le]

theorem delivered_pop (q : Fifo α) (h : q.taken < q.sent.length) :
    (q.pop h).delivered = q.delivered ++ [q.sent[q.taken]] := by
  simp [delivered, pop]

end Fifo

end SingEwp
