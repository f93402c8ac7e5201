/-!
# Jobs

What an attempt to process an order comes to, how the queue refuses an order, and what the queue
counts.
-/

namespace Rewards.Pipeline

/-- What a worker does with a job after an attempt. A pause is in milliseconds. -/
inductive JobResult where
  | success
  | retryAfterDelay
  | pauseWorkerFor (milliseconds : Nat)
  | fatal (reason : String)
deriving DecidableEq

/-- Why the queue does not take an order. -/
inductive QueueError where
  | closed
  | cancelled
deriving DecidableEq

/-- The wording of a refusal. -/
def QueueError.message : QueueError → String
  | .closed => "order queue is closed"
  | .cancelled => "cancelled while waiting for queue capacity"

/-- What became of an order that was brought to the queue. -/
inductive Enqueued where
  | queued
  | alreadyTracked
deriving DecidableEq

/-- What the queue counts: attempts, and how they ended. -/
structure Counters where
  processed : Nat
  succeeded : Nat
  retried : Nat
  paused : Nat
  failed : Nat
  timedOut : Nat
deriving DecidableEq

/-- The counters before any attempt. -/
def Counters.zero : Counters := ⟨0, 0, 0, 0, 0, 0⟩

end Rewards.Pipeline
