import Rewards.Pipeline.Queue

/-!
# The pipeline

The queue with everybody who works on it: callers who bring orders, workers, and retries that bring
an order back after a while. A job is with a sender in line, in the buffer, with a worker, or with a
retry. The functions here are the steps that these parties make. Each one is taken as a whole, and
whoever looks at the shutdown signal looks at it first.
-/

namespace Rewards.Pipeline

/-- What a worker is doing. -/
inductive Activity where
  | idle
  | attempting (order : Order)
  | pausing (order : Order)
deriving DecidableEq

/-- The pipeline. Workers and retries have identifiers of their own; a retry that is in line is
among the senders of the queue. -/
structure State where
  queue : Queue
  isCancelled : Bool
  workers : List (Nat × Activity)
  retries : List (Nat × Order)
deriving DecidableEq

/-- What comes of bringing an order to the queue. -/
inductive Offer where
  | sent
  | refused (e : QueueError)
  | waits
deriving DecidableEq

namespace State

/-- The pipeline before anything happens. -/
def ofCapacity (capacity : Nat) : State := ⟨.ofCapacity capacity, false, [], []⟩

/-- Change the queue. -/
def onQueue (s : State) (f : Queue → Queue) : State := { s with queue := f s.queue }

/-! ## Bringing orders -/

/-- Bring a tracked order to the queue. A stopped queue is noticed first, then a shutdown, then a
lack of room. -/
def send (s : State) (id : Nat) (order : Order) : State × Offer :=
  if !s.queue.isOpen then (s, .refused .closed)
  else if s.isCancelled then (s, .refused .cancelled)
  else if s.queue.hasFreeRoom then (s.onQueue (·.push order), .sent)
  else (s.onQueue (·.await ⟨id, order⟩), .waits)

/-- Bring a tracked order to the queue and stop tracking it if it is refused. -/
def sendOrRelease (s : State) (id : Nat) (order : Order) : State × Offer :=
  match s.send id order with
  | (s, .refused e) => (s.onQueue (·.release order.number), .refused e)
  | result => result

/-- Bring an order to the queue unless its number is tracked. There is no offer if it is. -/
def enqueue (s : State) (id : Nat) (order : Order) : State × Option Offer :=
  if s.queue.isTracked order.number then (s, none)
  else
    let (s, offer) := (s.onQueue (·.track order.number)).sendOrRelease id order
    (s, some offer)

/-- Go on in line: give up at a shutdown, otherwise put the order into the buffer if there is room
for it. -/
def resumeSender (s : State) (id : Nat) : State × Offer :=
  match s.queue.waiting.find? (·.id == id) with
  | none => (s, .waits)
  | some sender =>
      if s.isCancelled then
        (s.onQueue fun q => (q.leave id).release sender.order.number, .refused .cancelled)
      else if s.queue.granted.contains sender then
        (s.onQueue fun q => (q.leave id).push sender.order, .sent)
      else (s, .waits)

/-- Drop a caller who waits in line. The number stays tracked. -/
def dropSender (s : State) (id : Nat) : State := s.onQueue (·.leave id)

/-! ## Workers -/

/-- What a worker is doing, if there is one. -/
def activity? (s : State) (id : Nat) : Option Activity := s.workers.lookup id

/-- Start a worker. -/
def addWorker (s : State) (id : Nat) : State :=
  { s with workers := s.workers ++ [(id, .idle)] }

/-- Let a worker do something. -/
def setActivity (s : State) (id : Nat) (activity : Activity) : State :=
  { s with workers := s.workers.map fun w => if w.1 = id then (id, activity) else w }

/-- Take a worker away: it leaves, its attempt crashes, or it is aborted. The number of its order
stays tracked. -/
def removeWorker (s : State) (id : Nat) : State :=
  { s with workers := s.workers.filter (·.1 != id) }

/-- Start an attempt. -/
def startAttempt (s : State) (id : Nat) (order : Order) : State :=
  (s.onQueue (·.count fun c => { c with processed := c.processed + 1 })).setActivity id
    (.attempting order)

/-- An idle worker takes the first order from the buffer and starts an attempt. -/
def receive (s : State) (id : Nat) : State :=
  match s.queue.buffer with
  | [] => s
  | order :: rest => (s.onQueue fun q => { q with buffer := rest }).startAttempt id order

/-- An attempt has ended for good: the number is no longer tracked. -/
def finish (s : State) (id : Nat) (order : Order) : State :=
  (s.onQueue (·.release order.number)).setActivity id .idle

/-- An attempt has succeeded. -/
def succeed (s : State) (id : Nat) (order : Order) : State :=
  (s.finish id order).onQueue (·.count fun c => { c with succeeded := c.succeeded + 1 })

/-- An attempt has failed, and another one would not help. -/
def fail (s : State) (id : Nat) (order : Order) : State :=
  (s.finish id order).onQueue (·.count fun c => { c with failed := c.failed + 1 })

/-- An attempt is to be made again later: a retry takes the order. -/
def retryLater (s : State) (id : Nat) (order : Order) (retry : Nat) : State :=
  let s := (s.setActivity id .idle).onQueue (·.count fun c => { c with retried := c.retried + 1 })
  { s with retries := s.retries ++ [(retry, order)] }

/-- An attempt has taken too long. -/
def expire (s : State) (id : Nat) (order : Order) (retry : Nat) : State :=
  (s.onQueue (·.count fun c => { c with timedOut := c.timedOut + 1 })).retryLater id order retry

/-- The worker is to pause and keeps the order. -/
def pause (s : State) (id : Nat) (order : Order) : State :=
  (s.onQueue (·.count fun c => { c with paused := c.paused + 1 })).setActivity id (.pausing order)

/-- Break off a pause at a shutdown. -/
def interruptPause (s : State) (id : Nat) (order : Order) : State := s.finish id order

/-- End a pause. If the queue is stopped the order is given up, if there is free room it goes to
the end of the buffer, and otherwise the worker starts another attempt itself. -/
def resumePause (s : State) (id : Nat) (order : Order) : State :=
  if !s.queue.isOpen then s.finish id order
  else if s.queue.hasFreeRoom then (s.onQueue (·.push order)).setActivity id .idle
  else s.startAttempt id order

/-! ## Retries -/

/-- The order of a retry that has not yet brought it back. -/
def retryOrder? (s : State) (id : Nat) : Option Order := s.retries.lookup id

/-- Take a retry away. -/
def removeRetry (s : State) (id : Nat) : State :=
  { s with retries := s.retries.filter (·.1 != id) }

/-- Give a retry up at a shutdown. -/
def cancelRetry (s : State) (id : Nat) (order : Order) : State :=
  (s.removeRetry id).onQueue (·.release order.number)

/-- A retry brings its order back to the queue. -/
def wakeRetry (s : State) (id : Nat) (order : Order) : State × Offer :=
  (s.removeRetry id).sendOrRelease id order

/-! ## The end -/

/-- Stop the queue. -/
def stop (s : State) : State := s.onQueue fun q => { q with isOpen := false }

/-- Give the shutdown signal. -/
def cancel (s : State) : State := { s with isCancelled := true }

end State

end Rewards.Pipeline
