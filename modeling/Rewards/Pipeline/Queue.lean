import Rewards.Order.Basic
import Rewards.Pipeline.Job

/-!
# The queue

A bounded buffer of orders. Whoever brings an order to a full buffer waits in line; room that
becomes free belongs to those at the head of the line, so a newcomer never overtakes them. The
numbers of all orders that have a job are tracked.
-/

namespace Rewards.Pipeline

/-- Somebody who waits for room with an order. -/
structure Sender where
  id : Nat
  order : Order
deriving DecidableEq

/-- The queue. It is open until it is stopped. -/
structure Queue where
  capacity : Nat
  isOpen : Bool
  buffer : List Order
  waiting : List Sender
  tracked : List OrderNumber
  counters : Counters
deriving DecidableEq

namespace Queue

/-- An open queue without orders. It has room for one order at least. -/
def ofCapacity (capacity : Nat) : Queue := ⟨max capacity 1, true, [], [], [], .zero⟩

/-- The room in the buffer. -/
def room (q : Queue) : Nat := q.capacity - q.buffer.length

/-- A newcomer finds room that belongs to nobody. -/
def hasFreeRoom (q : Queue) : Bool := q.waiting.length < q.room

/-- Those in line for whom there is room. -/
def granted (q : Queue) : List Sender := q.waiting.take q.room

/-- Nothing can come any more: the queue is stopped and nobody is in line. -/
def isSealed (q : Queue) : Bool := !q.isOpen && q.waiting.isEmpty

/-- Nothing is left and nothing can come any more. -/
def isExhausted (q : Queue) : Bool := q.isSealed && q.buffer.isEmpty

/-- Track a number. -/
def track (q : Queue) (number : OrderNumber) : Queue :=
  { q with tracked := number :: q.tracked }

/-- The number is tracked. -/
def isTracked (q : Queue) (number : OrderNumber) : Bool := q.tracked.contains number

/-- Stop tracking a number. -/
def release (q : Queue) (number : OrderNumber) : Queue :=
  { q with tracked := q.tracked.filter (· != number) }

/-- Put an order at the end of the buffer. -/
def push (q : Queue) (order : Order) : Queue := { q with buffer := q.buffer ++ [order] }

/-- Get in line. -/
def await (q : Queue) (sender : Sender) : Queue := { q with waiting := q.waiting ++ [sender] }

/-- Leave the line. -/
def leave (q : Queue) (id : Nat) : Queue :=
  { q with waiting := q.waiting.filter (·.id != id) }

/-- Change the counters. -/
def count (q : Queue) (f : Counters → Counters) : Queue := { q with counters := f q.counters }

end Queue

end Rewards.Pipeline
