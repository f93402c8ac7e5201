import Rewards.Accrual.Outcome
import Rewards.Pipeline.Job
import Rewards.Store.Access

/-!
# Attempts

An attempt to process an order reads it, claims it if it is new, asks the accrual system and
records the answer. Each step makes one call, so attempts may be interleaved between any two steps
and abandoned after any of them. Every change of the store is conditional on the status that the
attempt has seen; an attempt that comes too late counts as a success.
-/

namespace Rewards.Pipeline

/-- Where an attempt stands. In `asking` the store has the order as being processed, and in
`finishing` the order is as the answer makes it but not yet stored. -/
inductive Attempt where
  | reading
  | claiming (order : Order)
  | rereading
  | asking (order : Order)
  | finishing (order : Order)
  | done (result : JobResult)
deriving DecidableEq

namespace Attempt

/-- End for good. -/
def fail (reason : String) : Attempt := .done (.fatal reason)

/-- Go on with an order that is not to be claimed any more. -/
def proceed (order : Order) : Attempt :=
  if order.status = .processing then .asking order
  else if order.status.isTerminal then .done .success
  else
    fail (s!"order {order.number.text} is {order.status.toText}, " ++
      s!"expected {OrderStatus.processing.toText}")

/-- Use the order that the store has. -/
def useStored (number : OrderNumber) (next : Order → Attempt) :
    Except StoreError (Option Order) → Attempt
  | .ok (some order) => next order
  | .ok none => fail s!"order {number.text} not found"
  | .error e => fail e.message

/-- Go on with an order that has been read for the first time. -/
def begin (order : Order) : Attempt :=
  if order.status = .new then .claiming order else proceed order

/-- Go on after the claim of an order. -/
def afterClaim (order : Order) : Except StoreError Bool → Attempt
  | .error e => fail e.message
  | .ok false => .rereading
  | .ok true =>
      match order.start with
      | .ok claimed => proceed claimed
      | .error e => fail e.message

/-- Store the order as the answer makes it. -/
def settle : Except DomainError Order → Attempt
  | .ok order => .finishing order
  | .error e => fail e.message

/-- Go on with the answer of the accrual system. -/
def answer (order : Order) : Except AccrualError AccrualOutcome → Attempt
  | .ok (.resolved amount) => settle (order.resolve amount)
  | .ok .invalid => settle order.reject
  | .ok .notReady => .done .retryAfterDelay
  | .ok .notFound => .done .retryAfterDelay
  | .ok (.throttled (some wait)) => .done (.pauseWorkerFor wait)
  | .ok (.throttled none) => .done .retryAfterDelay
  | .error e => if e.isTransient then .done .retryAfterDelay else fail e.message

/-- Go on after the final change of the store. -/
def afterFinish : Except StoreError Bool → Attempt
  | .ok _ => .done .success
  | .error e => fail e.message

/-- The accrual that is stored with an order. -/
def storedAccrual (order : Order) : Option Decimal :=
  if order.status = .processed then some order.accrual else none

/-- The next step of an attempt that makes a call of the store. An attempt that is asking or done
stays where it is. -/
def step {m : Type → Type} [Monad m] (store : StoreAccess m) (number : OrderNumber) :
    Attempt → m Attempt
  | .reading => do return useStored number begin (← store.order number)
  | .claiming order => do
      return afterClaim order (← store.transition number .new .processing none)
  | .rereading => do return useStored number proceed (← store.order number)
  | .finishing order => do
      return afterFinish (← store.transition number .processing order.status (storedAccrual order))
  | a => pure a

/-- The attempt waits for the accrual system, or is done. -/
def isWaiting : Attempt → Bool
  | .asking _ => true
  | .done _ => true
  | _ => false

/-- The most steps that an attempt makes without waiting. -/
def maxSteps : Nat := 3

/-- Step until the attempt waits. -/
def advance {m : Type → Type} [Monad m] (store : StoreAccess m) (number : OrderNumber) :
    Nat → Attempt → m Attempt
  | 0, a => pure a
  | steps + 1, a => do
      if a.isWaiting then return a
      advance store number steps (← a.step store number)

end Attempt

end Rewards.Pipeline
