import Mathlib.Data.List.Basic

/-!
# First-in-first-out histories

A queue that is only ever extended at the back and shortened at the front is
described by three lists: everything that arrived, everything that left, and
what is waiting in between.  `Fifo` bundles them with the law that connects
them, so that a history that lost, duplicated or reordered an element cannot
be built.
-/

/-- The arrivals of a queue, split into the elements that left it and those
still waiting. -/
structure Fifo (α : Type*) where
  arrived : List α
  departed : List α
  waiting : List α
  law : departed ++ waiting = arrived

namespace Fifo

variable {α : Type*}

/-- The history of a fresh queue. -/
def empty : Fifo α where
  arrived := []
  departed := []
  waiting := []
  law := rfl

/-- Elements join at the back. -/
def enqueue (queue : Fifo α) (elements : List α) : Fifo α where
  arrived := queue.arrived ++ elements
  departed := queue.departed
  waiting := queue.waiting ++ elements
  law := by rw [← List.append_assoc, queue.law]

/-- The first `count` waiting elements leave; all of them when fewer wait. -/
def dequeue (queue : Fifo α) (count : Nat) : Fifo α where
  arrived := queue.arrived
  departed := queue.departed ++ queue.waiting.take count
  waiting := queue.waiting.drop count
  law := by rw [List.append_assoc, List.take_append_drop, queue.law]

@[simp]
theorem empty_waiting : (empty : Fifo α).waiting = [] :=
  rfl

@[simp]
theorem enqueue_waiting (queue : Fifo α) (elements : List α) :
    (queue.enqueue elements).waiting = queue.waiting ++ elements :=
  rfl

@[simp]
theorem dequeue_waiting (queue : Fifo α) (count : Nat) :
    (queue.dequeue count).waiting = queue.waiting.drop count :=
  rfl

/-- Emptying a queue: a departure of at least all waiting elements. -/
theorem dequeue_all {queue : Fifo α} {count : Nat}
    (all : queue.waiting.length ≤ count) :
    (queue.dequeue count).waiting = [] := by
  rw [dequeue_waiting, List.drop_eq_nil_of_le all]

end Fifo
