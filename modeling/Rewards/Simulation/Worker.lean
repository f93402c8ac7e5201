import Rewards.Simulation.Processing

/-!
# Workers and retries

The moves of workers and of the retries that they leave behind. A move says whether the task goes
on before anybody else does.
-/

namespace Rewards.Simulation

open Pipeline

/-- Take a worker away. -/
def dismiss (id : Nat) : StateM Simulation Unit := do
  update (·.removeWorker id)
  leaveTurns id
  removeTask id

/-- Look for the next order. -/
def becomeIdle (id : Nat) : StateM Simulation Bool := do
  dropTimers id
  setTask id (.worker .idle)
  return true

/-- Leave an order to a retry. -/
def leaveToRetry (id : Nat) (step : Nat → Pipeline.State → Pipeline.State) :
    StateM Simulation Bool := do
  let retry ← spawn fun _ => .retry .starting
  update (step retry)
  becomeIdle id

/-- Keep an order and sleep. -/
def sleepWith (id : Nat) (order : Order) (wake : Nat) : StateM Simulation Unit := do
  dropTimers id
  setTask id (.worker (.pausing order wake))

/-- Do what the result of an attempt asks for. A pause begins with a look at the signal and at the
time, which is the next move. -/
def conclude (id : Nat) (order : Order) : JobResult → StateM Simulation Bool
  | .success => do
      update (·.succeed id order)
      becomeIdle id
  | .fatal _ => do
      update (·.fail id order)
      becomeIdle id
  | .retryAfterDelay => leaveToRetry id fun retry p => p.retryLater id order retry
  | .pauseWorkerFor milliseconds => do
      update (·.pause id order)
      let s ← get
      sleepWith id order (s.now + milliseconds)
      if milliseconds = 0 ∨ s.pipeline.isCancelled then return true
      addTimer id (s.now + milliseconds)
      return false

/-- Go on after a part of an attempt. The time is up only for an attempt that waits. -/
def afterRun (id : Nat) (order : Order) (deadline : Nat) :
    Progress → StateM Simulation Bool
  | .ended result => conclude id order result
  | .crashed => do
      dismiss id
      return false
  | .waiting run => do
      if deadline ≤ (← get).now then
        leaveToRetry id fun retry p => p.expire id order retry
      else
        setTask id (.worker (.attempting order run deadline))
        return false

/-- Start an attempt. The timer of its deadline comes after those of the run itself. -/
def attempt (id : Nat) (order : Order) : StateM Simulation Bool := do
  let s ← get
  let deadline := s.now + s.settings.jobTimeout
  let progress ← startRun id order.number
  addTimer id deadline
  afterRun id order deadline progress

/-- Wait for the turn, take an order, or leave. -/
def moveIdle (id : Nat) : StateM Simulation Bool := do
  if ← isCancelled then
    dismiss id
    return false
  if !(← get).turns.contains id then
    modify fun s => { s with turns := s.turns ++ [id] }
  let s ← get
  if s.turns.head? ≠ some id then return false
  match s.pipeline.queue.buffer with
  | order :: _ => do
      update (·.receive id)
      leaveTurns id
      attempt id order
  | [] => do
      if s.pipeline.queue.isExhausted then dismiss id
      return false

/-- Break off a pause, go on sleeping, or end the pause. -/
def movePausing (id : Nat) (order : Order) (wake : Nat) : StateM Simulation Bool := do
  if ← isCancelled then
    update (·.interruptPause id order)
    becomeIdle id
  else if (← get).now < wake then return false
  else
    update (·.resumePause id order)
    match (← get).pipeline.activity? id with
    | some (.attempting order) => do
        dropTimers id
        attempt id order
    | _ => becomeIdle id

/-- A move of a worker. -/
def moveWorker (id : Nat) : WorkerPhase → StateM Simulation Bool
  | .idle => moveIdle id
  | .attempting order run deadline => do
      afterRun id order deadline (← continueRun id run)
  | .pausing order wake => movePausing id order wake

/-- Go on after a retry has brought its order to the queue. -/
def afterRetry (id : Nat) : Offer → StateM Simulation Bool
  | .waits => do
      setTask id (.retry .inLine)
      return false
  | _ => do
      removeTask id
      return false

/-- Give up, sleep, or bring the order to the queue. -/
def moveSleeping (id wake : Nat) : StateM Simulation Bool := do
  match (← get).pipeline.retryOrder? id with
  | none => do
      removeTask id
      return false
  | some order => do
      if ← isCancelled then
        update (·.cancelRetry id order)
        removeTask id
        return false
      else if (← get).now < wake then return false
      else afterRetry id (← change (·.wakeRetry id order))

/-- A move of a retry. -/
def moveRetry (id : Nat) : RetryPhase → StateM Simulation Bool
  | .starting => do
      let s ← get
      let wake := s.now + s.settings.jobsDelay
      setTask id (.retry (.sleeping wake))
      if s.now < wake then addTimer id wake
      return true
  | .sleeping wake => moveSleeping id wake
  | .inLine => do afterRetry id (← change (·.resumeSender id))

end Rewards.Simulation
