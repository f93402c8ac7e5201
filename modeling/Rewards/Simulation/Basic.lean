import Rewards.Http.Router
import Rewards.Pipeline.Sweep
import Rewards.Simulation.Script

/-!
# Simulations

The whole service on a clock that moves only when it is told to. Everybody who waits for something
is a task: workers, retries and calls from outside. Tasks that can go on are ready and go on in
the order in which they became ready; a task that waits for time has a timer.
-/

namespace Rewards

namespace Simulation

open Pipeline

/-- A run of the processor that waits: for the end of a stall, or for a reply about an order that
is being processed. Times are absolute. -/
inductive Run where
  | stalling (wake : Nat)
  | delayed (order : Order) (wake : Nat) (effect : StateM Backend Unit) (next : ScriptedReply)

/-- How far a run of the processor has come. -/
inductive Progress where
  | waiting (run : Run)
  | ended (result : JobResult)
  | crashed

/-- What a worker is doing. -/
inductive WorkerPhase where
  | idle
  | attempting (order : Order) (run : Run) (deadline : Nat)
  | pausing (order : Order) (wake : Nat)

/-- What a retry is doing. -/
inductive RetryPhase where
  | starting
  | sleeping (wake : Nat)
  | inLine

/-- What a call does once the queue has taken or refused an order. -/
inductive Purpose where
  | report
  | respond (request : Http.Request) (response : Http.Response)

/-- What a call comes to. -/
inductive CallResult where
  | enqueued (outcome : Except QueueError Enqueued)
  | swept (outcome : Except StoreError Nat)
  | responded (response : Http.Response) (entry : Http.LogEntry)
  | overflowed
  | cancelled
  | processed (result : JobResult)
  | crashed

/-- A call from outside. -/
inductive Call where
  | bring (order : Order) (purpose : Purpose)
  | inLine (purpose : Purpose)
  | sweep
  | sweeping (sweep : Sweep)
  | request (request : Http.Request)
  | awaitCancel
  | process (order : Order)
  | processing (run : Run)
  | finished (result : CallResult)

/-- Somebody who goes on by steps. -/
inductive Task where
  | worker (phase : WorkerPhase)
  | retry (phase : RetryPhase)
  | call (call : Call)

/-- A task that becomes ready at a time. -/
structure Timer where
  deadline : Nat
  task : Nat
deriving DecidableEq

end Simulation

open Simulation in
/-- The state of a simulation. Idle workers take turns: the first of them takes the next order from
the queue. Timers stand in the order in which they fire. -/
structure Simulation where
  settings : Settings
  backend : Backend
  storeCalls : List StoreMethod
  processor : Processor
  pipeline : Pipeline.State
  now : Nat
  turns : List Nat
  tasks : List (Nat × Task)
  nextTask : Nat
  ready : List Nat
  timers : List Timer
  pools : List (List Nat)
  background : List (String × Nat)
  asked : List OrderNumber
  attempts : List (Nat × OrderNumber)

namespace Simulation

open Pipeline

/-- A simulation before its first step. -/
def ofSettings (settings : Settings) : Simulation where
  settings := settings
  backend := ⟨.empty, settings.start⟩
  storeCalls := []
  processor := settings.processor
  pipeline := .ofCapacity settings.capacity
  now := 0
  turns := []
  tasks := []
  nextTask := 0
  ready := []
  timers := []
  pools := []
  background := []
  asked := []
  attempts := []

/-- Act on the store and its clock. -/
def onBackend {α : Type} (action : StateM Backend α) : StateM Simulation α := do
  let (result, backend) := action (← get).backend
  modify fun s => { s with backend := backend }
  return result

/-! ## Tasks -/

/-- Let a task go on. -/
def wake (id : Nat) : StateM Simulation Unit :=
  modify fun s => if s.ready.contains id then s else { s with ready := s.ready ++ [id] }

/-- Start a task. -/
def spawn (task : Nat → Task) : StateM Simulation Nat := do
  let id := (← get).nextTask
  modify fun s => { s with nextTask := id + 1, tasks := s.tasks ++ [(id, task id)] }
  wake id
  return id

/-- Change what a task is doing. -/
def setTask (id : Nat) (task : Task) : StateM Simulation Unit :=
  modify fun s => { s with tasks := s.tasks.map fun t => if t.1 = id then (id, task) else t }

/-- Cancel the timers of a task. -/
def dropTimers (id : Nat) : StateM Simulation Unit :=
  modify fun s => { s with timers := s.timers.filter (·.task != id) }

/-- Take a task away. -/
def removeTask (id : Nat) : StateM Simulation Unit := do
  dropTimers id
  modify fun s => { s with
    tasks := s.tasks.filter (·.1 != id)
    ready := s.ready.filter (· != id) }

/-- Put a timer behind those that fire no later. -/
def insertTimer (timer : Timer) (timers : List Timer) : List Timer :=
  timers.takeWhile (·.deadline ≤ timer.deadline) ++
    timer :: timers.dropWhile (·.deadline ≤ timer.deadline)

/-- Let a task become ready at a time. -/
def addTimer (id deadline : Nat) : StateM Simulation Unit :=
  modify fun s => { s with timers := insertTimer ⟨deadline, id⟩ s.timers }

/-! ## The pipeline -/

/-- Let the worker go on whose turn it is. -/
def wakeReceiver : StateM Simulation Unit := do
  match (← get).turns with
  | [] => pure ()
  | id :: _ => wake id

/-- A change of the queue concerns the worker whose turn it is: an order has come, or nothing can
come any more. -/
def concernsReceiver (before after : Queue) : Bool :=
  before.buffer.length < after.buffer.length || (!before.isSealed && after.isSealed)

/-- Make a step of the pipeline and let those go on who can go on because of it. -/
def change {α : Type} (step : Pipeline.State → Pipeline.State × α) : StateM Simulation α := do
  let before := (← get).pipeline.queue
  let (pipeline, result) := step (← get).pipeline
  modify fun s => { s with pipeline := pipeline }
  (pipeline.queue.granted.filter (!before.granted.contains ·)).forM (wake ·.id)
  if concernsReceiver before pipeline.queue then wakeReceiver
  return result

/-- Make a step of the pipeline that has no result. -/
def update (step : Pipeline.State → Pipeline.State) : StateM Simulation Unit :=
  change fun p => (step p, ())

/-- The shutdown signal has been given. -/
def isCancelled : StateM Simulation Bool := return (← get).pipeline.isCancelled

/-- Give up one's turn. The next one goes on if it was the first. -/
def leaveTurns (id : Nat) : StateM Simulation Unit := do
  let turns := (← get).turns
  modify fun s => { s with turns := turns.filter (· != id) }
  if turns.head? = some id then wakeReceiver

end Simulation

end Rewards
