import Rewards.Pipeline.State

/-!
# Runs of the pipeline

A `World` is the pipeline together with the calls of `enqueue` that are going on. Any number of
calls, workers and retries take steps in any order. Each step is one of the functions of the
pipeline, taken when it is the turn of the party that takes it. A call arrives, which tracks its
number, and brings its order to the queue in a step of its own, so that others may step in between;
`enqueue_eq_offer` says that the two steps together are `State.enqueue`. A `Run` collects what can
be seen from outside: what the calls returned and which numbers were released.
-/

namespace Rewards.Pipeline

/-- What can be seen from outside: a call returns, or a number is no longer tracked. -/
inductive Event where
  | returned (id : Nat) (number : OrderNumber) (result : Except QueueError Enqueued)
  | released (number : OrderNumber)

/-- What a call returns, unless it has to wait. -/
def Offer.result? : Offer → Option (Except QueueError Enqueued)
  | .sent => some (.ok .queued)
  | .refused e => some (.error e)
  | .waits => none

/-- The order that a worker has. -/
def Activity.order? : Activity → Option Order
  | .idle => none
  | .attempting order => some order
  | .pausing order => some order

/-- The pipeline, the calls that have not yet brought their order to the queue, and the identifiers
of all calls that have not returned. -/
structure World where
  pipeline : State
  arriving : List Sender
  calls : List Nat
deriving DecidableEq

/-! ## Parties -/

/-- Somebody with an identifier, or something without one, that may have an order. -/
structure Party where
  id : Option Nat
  number : Option OrderNumber
deriving DecidableEq

namespace Party

/-- A call or a retry that brings an order to the queue. -/
def ofSender (sender : Sender) : Party := ⟨some sender.id, some sender.order.number⟩

/-- An order in the buffer. -/
def ofOrder (order : Order) : Party := ⟨none, some order.number⟩

/-- A worker. -/
def ofWorker (worker : Nat × Activity) : Party :=
  ⟨some worker.1, worker.2.order?.map (·.number)⟩

/-- A retry that has not yet brought its order back. -/
def ofRetry (retry : Nat × Order) : Party := ⟨some retry.1, some retry.2.number⟩

/-- The party has the identifier. -/
def isCalled (id : Nat) (x : Party) : Bool := x.id == some id

/-- The party has an order with the number. -/
def hasOrder (number : OrderNumber) (x : Party) : Bool := x.number == some number

@[simp] theorem is_called_some (id other : Nat) (number : Option OrderNumber) :
    isCalled id ⟨some other, number⟩ = (other == id) := by
  simp [isCalled]

@[simp] theorem is_called_none (id : Nat) (number : Option OrderNumber) :
    isCalled id ⟨none, number⟩ = false := rfl

@[simp] theorem has_order_some (number other : OrderNumber) (id : Option Nat) :
    hasOrder number ⟨id, some other⟩ = (other == number) := by
  simp [hasOrder]

@[simp] theorem has_order_none (number : OrderNumber) (id : Option Nat) :
    hasOrder number ⟨id, none⟩ = false := rfl

end Party

/-- Everybody and everything that may have an order: those in line, the buffer, the workers and the
retries. -/
def State.parties (p : State) : List Party :=
  p.queue.waiting.map .ofSender ++ p.queue.buffer.map .ofOrder ++ p.workers.map .ofWorker ++
    p.retries.map .ofRetry

namespace World

/-- A pipeline before anything happens. -/
def ofCapacity (capacity : Nat) : World := ⟨.ofCapacity capacity, [], []⟩

/-- The numbers that are tracked. -/
def tracked (s : World) : List OrderNumber := s.pipeline.queue.tracked

/-- Change the pipeline. -/
def onPipeline (s : World) (f : State → State) : World := { s with pipeline := f s.pipeline }

/-- The parties of the pipeline and the calls that have not yet brought their order to the queue. -/
def parties (s : World) : List Party := s.arriving.map .ofSender ++ s.pipeline.parties

/-- How many parties there are. -/
def tally (s : World) (q : Party → Bool) : Nat := s.parties.countP q

/-- How many jobs there are for a number: in a call, in line, in the buffer, with a worker that
attempts or pauses, or with a retry. -/
def jobsOf (s : World) (number : OrderNumber) : Nat := s.tally (Party.hasOrder number)

/-- How many parties have an identifier. -/
def partiesOf (s : World) (id : Nat) : Nat := s.tally (Party.isCalled id)

/-- What a call returns when its order has been brought to the queue. Nobody looks at what comes of
the order of a retry. -/
def returnedBy (s : World) (sender : Sender) (offer : Offer) : List Event :=
  match offer.result? with
  | some result =>
      if sender.id ∈ s.calls then [.returned sender.id sender.order.number result] else []
  | none => []

/-- The calls that are still going on then. -/
def callsAfter (s : World) (sender : Sender) (offer : Offer) : List Nat :=
  if offer = .waits then s.calls else s.calls.filter (· != sender.id)

/-- What can be seen of the numbers that are no longer tracked. -/
def releasedUntil (s t : World) : List Event :=
  (s.tracked.filter (· ∉ t.tracked)).map .released

end World

/-! ## Steps -/

/-- Who takes a step, and which. -/
inductive Action where
  | addWorker (id : Nat)
  | arrive (id : Nat)
  | turnAway (id : Nat)
  | offer (id : Nat)
  | resume (id : Nat)
  | dropCall (id : Nat)
  | receive (id : Nat)
  | conclude (id : Nat) (result : JobResult)
  | expire (id : Nat)
  | crash (id : Nat)
  | abort (id : Nat)
  | leave (id : Nat)
  | endPause (id : Nat)
  | interruptPause (id : Nat)
  | wakeRetry (id : Nat)
  | cancelRetry (id : Nat)
  | stop
  | cancel
deriving DecidableEq

/-- A step, with what the calls return in it. Whoever looks at the shutdown signal looks at it
first: an idle worker leaves, and pauses and retries break off, once it has been given. -/
inductive Step (s : World) : Action → List Event → World → Prop where
  | addWorker (id : Nat) :
      s.partiesOf id = 0 → Step s (.addWorker id) [] (s.onPipeline (·.addWorker id))
  | arrive (id : Nat) (order : Order) :
      s.partiesOf id = 0 → order.number ∉ s.tracked →
      Step s (.arrive id) []
        { s with
          pipeline := s.pipeline.onQueue (·.track order.number),
          arriving := s.arriving ++ [⟨id, order⟩],
          calls := s.calls ++ [id] }
  | turnAway (id : Nat) (order : Order) :
      order.number ∈ s.tracked →
      Step s (.turnAway id) [.returned id order.number (.ok .alreadyTracked)] s
  | offer (sender : Sender) (pipeline : State) (offer : Offer) :
      sender ∈ s.arriving →
      s.pipeline.sendOrRelease sender.id sender.order = (pipeline, offer) →
      Step s (.offer sender.id) (s.returnedBy sender offer)
        { s with
          pipeline := pipeline,
          arriving := s.arriving.filter (·.id != sender.id),
          calls := s.callsAfter sender offer }
  | resume (sender : Sender) (pipeline : State) (offer : Offer) :
      sender ∈ s.pipeline.queue.waiting →
      s.pipeline.resumeSender sender.id = (pipeline, offer) →
      Step s (.resume sender.id) (s.returnedBy sender offer)
        { s with pipeline := pipeline, calls := s.callsAfter sender offer }
  | dropArrival (sender : Sender) :
      sender ∈ s.arriving →
      Step s (.dropCall sender.id) []
        { s with
          arriving := s.arriving.filter (·.id != sender.id),
          calls := s.calls.filter (· != sender.id) }
  | dropCall (sender : Sender) :
      sender ∈ s.pipeline.queue.waiting → sender.id ∈ s.calls →
      Step s (.dropCall sender.id) []
        { s with
          pipeline := s.pipeline.dropSender sender.id,
          calls := s.calls.filter (· != sender.id) }
  | receive (id : Nat) (order : Order) (rest : List Order) :
      s.pipeline.activity? id = some .idle → s.pipeline.isCancelled = false →
      s.pipeline.queue.buffer = order :: rest →
      Step s (.receive id) [] (s.onPipeline (·.receive id))
  | succeed (id : Nat) (order : Order) :
      s.pipeline.activity? id = some (.attempting order) →
      Step s (.conclude id .success) [] (s.onPipeline (·.succeed id order))
  | fail (id : Nat) (order : Order) (reason : String) :
      s.pipeline.activity? id = some (.attempting order) →
      Step s (.conclude id (.fatal reason)) [] (s.onPipeline (·.fail id order))
  | retryLater (id : Nat) (order : Order) (retry : Nat) :
      s.pipeline.activity? id = some (.attempting order) → s.partiesOf retry = 0 →
      Step s (.conclude id .retryAfterDelay) [] (s.onPipeline (·.retryLater id order retry))
  | pause (id : Nat) (order : Order) (milliseconds : Nat) :
      s.pipeline.activity? id = some (.attempting order) →
      Step s (.conclude id (.pauseWorkerFor milliseconds)) [] (s.onPipeline (·.pause id order))
  | expire (id : Nat) (order : Order) (retry : Nat) :
      s.pipeline.activity? id = some (.attempting order) → s.partiesOf retry = 0 →
      Step s (.expire id) [] (s.onPipeline (·.expire id order retry))
  | crash (id : Nat) (order : Order) :
      s.pipeline.activity? id = some (.attempting order) →
      Step s (.crash id) [] (s.onPipeline (·.removeWorker id))
  | abort (id : Nat) (activity : Activity) :
      s.pipeline.activity? id = some activity →
      Step s (.abort id) [] (s.onPipeline (·.removeWorker id))
  | leave (id : Nat) :
      s.pipeline.activity? id = some .idle →
      s.pipeline.isCancelled = true ∨ s.pipeline.queue.isExhausted = true →
      Step s (.leave id) [] (s.onPipeline (·.removeWorker id))
  | endPause (id : Nat) (order : Order) :
      s.pipeline.activity? id = some (.pausing order) → s.pipeline.isCancelled = false →
      Step s (.endPause id) [] (s.onPipeline (·.resumePause id order))
  | interruptPause (id : Nat) (order : Order) :
      s.pipeline.activity? id = some (.pausing order) → s.pipeline.isCancelled = true →
      Step s (.interruptPause id) [] (s.onPipeline (·.interruptPause id order))
  | wakeRetry (id : Nat) (order : Order) :
      s.pipeline.retryOrder? id = some order → s.pipeline.isCancelled = false →
      Step s (.wakeRetry id) [] (s.onPipeline fun p => (p.wakeRetry id order).1)
  | cancelRetry (id : Nat) (order : Order) :
      s.pipeline.retryOrder? id = some order → s.pipeline.isCancelled = true →
      Step s (.cancelRetry id) [] (s.onPipeline (·.cancelRetry id order))
  | stop : Step s .stop [] (s.onPipeline (·.stop))
  | cancel : Step s .cancel [] (s.onPipeline (·.cancel))

/-- Steps one after the other, with what can be seen from outside. -/
inductive Run (R : World → Action → List Event → World → Prop) (start : World) :
    List Action → List Event → World → Prop where
  | nil : Run R start [] [] start
  | concat {actions : List Action} {log events : List Event} {s t : World} {action : Action} :
      Run R start actions log s → R s action events t →
      Run R start (actions ++ [action]) (log ++ (s.releasedUntil t ++ events)) t

/-- A call that arrives and then brings its order to the queue does what `State.enqueue` does. -/
theorem enqueue_eq_offer {s : World} {id : Nat} {order : Order} (hfresh : s.partiesOf id = 0)
    (hnew : order.number ∉ s.tracked) :
    ∃ t u events, Step s (.arrive id) [] t ∧ Step t (.offer id) events u ∧
      u.pipeline = (s.pipeline.enqueue id order).1 ∧ u.arriving = s.arriving := by
  have harriving : s.arriving.filter (·.id != id) = s.arriving := by
    rw [List.filter_eq_self]
    intro sender hsender
    rw [World.partiesOf, World.tally, List.countP_eq_zero] at hfresh
    have hother := hfresh (.ofSender sender)
      (List.mem_append_left _ (List.mem_map_of_mem hsender))
    simpa [Party.ofSender, Party.isCalled] using hother
  refine ⟨_, _, _, .arrive id order hfresh hnew,
    .offer ⟨id, order⟩ _ _ (List.mem_append_right _ (List.mem_singleton_self _)) rfl, ?_, ?_⟩
  · have hnot : ¬ s.pipeline.queue.isTracked order.number = true := by
      simpa [Queue.isTracked, World.tracked] using hnew
    rw [State.enqueue, if_neg hnot]
    rfl
  · simp [harriving]

end Rewards.Pipeline
