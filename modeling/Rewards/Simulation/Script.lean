import Rewards.Accrual.Outcome
import Rewards.Pipeline.Job
import Rewards.Simulation.Backend

/-!
# Scripts

What a simulation is told beforehand: how attempts end or what the accrual system replies, and
which calls of the store are disturbed.
-/

namespace Rewards.Simulation

open Pipeline

/-- The operations of a store. -/
inductive StoreMethod where
  | createUser
  | userByLogin
  | userById
  | createOrder
  | order
  | transition
  | ordersOf
  | unfinishedOrders
  | ping
  | balance
  | withdraw
  | withdrawalsOf
deriving DecidableEq

/-- What happens to a call of the store: it fails, or somebody else uses the store just before. -/
inductive Disturbance where
  | failure (reason : String)
  | before (effect : StateM Backend Unit)

/-- A disturbance of one call of an operation; the first call has the number 1. -/
structure Fault where
  method : StoreMethod
  nth : Nat
  disturbance : Disturbance

/-- How an attempt goes. One that stalls succeeds after some milliseconds. -/
inductive ScriptedAttempt where
  | ends (result : JobResult)
  | stalls (milliseconds : Nat)
  | crashes
deriving DecidableEq

/-- What the accrual system replies, perhaps after some milliseconds in which somebody else uses
the store. -/
inductive ScriptedReply where
  | gives (answer : Except AccrualError AccrualOutcome)
  | after (milliseconds : Nat) (effect : StateM Backend Unit) (next : ScriptedReply)

/-- What is still to come for each order. -/
abbrev Agenda (α : Type) := List (OrderNumber × List α)

namespace Agenda

variable {α : Type}

/-- The next item for an order. -/
def next? (agenda : Agenda α) (number : OrderNumber) : Option α :=
  (agenda.lookup number).bind (·.head?)

/-- The agenda without the next item for an order. -/
def drop (agenda : Agenda α) (number : OrderNumber) : Agenda α :=
  agenda.map fun (n, items) => (n, if n = number then items.drop 1 else items)

/-- The agenda without the next item for an order, unless it is the last one. -/
def dropUnlessLast (agenda : Agenda α) (number : OrderNumber) : Agenda α :=
  match agenda.lookup number with
  | some (_ :: _ :: _) => agenda.drop number
  | _ => agenda

end Agenda

/-- How orders are processed: attempts follow a script, or the accrual system does. -/
inductive Processor where
  | scripted (attempts : Agenda ScriptedAttempt)
  | asking (replies : Agenda ScriptedReply)

namespace Processor

/-- The next reply of the accrual system for an order. The last one repeats, and an order without
replies is not ready. -/
def nextReply (replies : Agenda ScriptedReply) (number : OrderNumber) : ScriptedReply :=
  (replies.next? number).getD (.gives (.ok .notReady))

/-- The next attempt for an order. An order without attempts succeeds. -/
def nextAttempt (attempts : Agenda ScriptedAttempt) (number : OrderNumber) : ScriptedAttempt :=
  (attempts.next? number).getD (.ends .success)

end Processor

/-- What a simulation is told beforehand. Times are in milliseconds. -/
structure Settings where
  capacity : Nat
  jobsDelay : Nat
  jobTimeout : Nat
  passwordCost : Nat
  secret : String
  start : Instant
  processor : Processor
  faults : List Fault

end Rewards.Simulation
