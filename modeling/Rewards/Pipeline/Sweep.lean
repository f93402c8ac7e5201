import Rewards.Pipeline.State
import Rewards.Store.Access

/-!
# Sweeps

A sweep brings the orders that are unfinished in the store to the queue, one after the other as one
caller. It passes over an order whose number is tracked, waits in line where there is no room, and
ends early when the queue refuses an order. It counts the orders that it has queued.
-/

namespace Rewards.Pipeline

/-- Where a sweep stands: it is about to bring an order, is in line with one, or is over. -/
inductive Sweep where
  | bringing (order : Order) (rest : List Order) (queued : Nat)
  | inLine (rest : List Order) (queued : Nat)
  | ended (queued : Nat)
deriving DecidableEq

namespace Sweep

/-- Go on with the orders that are left. -/
def goOn (queued : Nat) : List Order → Sweep
  | [] => .ended queued
  | order :: rest => .bringing order rest queued

/-- Read the orders that are to be brought. -/
def start {m : Type → Type} [Monad m] (store : StoreAccess m) : m (Except StoreError Sweep) := do
  match ← store.unfinishedOrders with
  | .ok orders => return .ok (goOn 0 orders)
  | .error e => return .error e

/-- Go on once the queue has taken or refused an order. -/
def afterOutcome (rest : List Order) (queued : Nat) : Except QueueError Enqueued → Sweep
  | .ok .queued => goOn (queued + 1) rest
  | .ok .alreadyTracked => goOn queued rest
  | .error _ => .ended queued

/-- Go on with what has come of bringing an order. There is no offer for a tracked one. -/
def afterOffer (rest : List Order) (queued : Nat) : Option Offer → Sweep
  | none => afterOutcome rest queued (.ok .alreadyTracked)
  | some .sent => afterOutcome rest queued (.ok .queued)
  | some (.refused e) => afterOutcome rest queued (.error e)
  | some .waits => .inLine rest queued

/-- The next step of a sweep, which comes to the queue as one caller. -/
def step (id : Nat) (s : State) : Sweep → State × Sweep
  | .bringing order rest queued =>
      let (s, offer) := s.enqueue id order
      (s, afterOffer rest queued offer)
  | .inLine rest queued =>
      let (s, offer) := s.resumeSender id
      (s, afterOffer rest queued (some offer))
  | .ended queued => (s, .ended queued)

end Sweep

end Rewards.Pipeline
