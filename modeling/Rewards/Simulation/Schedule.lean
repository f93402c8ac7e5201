import Rewards.Simulation.Call
import Rewards.Simulation.Worker

/-!
# The schedule

Who goes on when. Ready tasks go on one after the other until all of them wait; then the clock may
move to the next timer. Timers that are due at the same time fire in the order in which they were
set.
-/

namespace Rewards.Simulation

/-- A move of a task. -/
def move (id : Nat) : StateM Simulation Bool := do
  match (← get).tasks.lookup id with
  | none => return false
  | some (.worker phase) => moveWorker id phase
  | some (.retry phase) => moveRetry id phase
  | some (.call call) => moveCall id call

/-- Make the next task the one that goes on. -/
def putFirst (id : Nat) : StateM Simulation Unit :=
  modify fun s => { s with ready := id :: s.ready.filter (· != id) }

/-- Let ready tasks make moves until none is left. -/
def settleWithin : Nat → StateM Simulation Unit
  | 0 => pure ()
  | moves + 1 => do
      match (← get).ready with
      | [] => pure ()
      | id :: rest => do
          modify fun s => { s with ready := rest }
          if ← move id then putFirst id
          settleWithin moves

/-- The most moves that are made without time passing. -/
def maxMoves : Nat := 100000

/-- Let everything happen that needs no time. -/
def settle : StateM Simulation Unit := settleWithin maxMoves

/-- Move the clock. -/
def setTime (now : Nat) : StateM Simulation Unit := modify fun s => { s with now := now }

/-- Fire the timers that are due. -/
def fire : StateM Simulation Unit := do
  let s ← get
  set { s with timers := s.timers.dropWhile (·.deadline ≤ s.now) }
  (s.timers.takeWhile (·.deadline ≤ s.now)).forM (wake ·.task)

/-- The time of the next timer. -/
def nextTime? : StateM Simulation (Option Nat) := return (← get).timers.head?.map (·.deadline)

/-- Move the clock to a time and let everything happen then. -/
def tick (time : Nat) : StateM Simulation Unit := do
  setTime time
  fire
  settle

/-- Pass from timer to timer up to a time. -/
def passUntil (target : Nat) : Nat → StateM Simulation Unit
  | 0 => setTime target
  | ticks + 1 => do
      match ← nextTime? with
      | none => setTime target
      | some time =>
          if target < time then setTime target
          else
            tick time
            passUntil target ticks

/-- Let time pass. A tick takes a millisecond at least. -/
def advance (milliseconds : Nat) : StateM Simulation Unit := do
  passUntil ((← get).now + milliseconds) (milliseconds + 1)

/-! ## Pools of workers -/

/-- Start a pool of workers. -/
def spawnWorkers (count : Nat) : StateM Simulation Unit := do
  let ids ← (List.range count).mapM fun _ => do
    let id ← spawn fun _ => .worker .idle
    update (·.addWorker id)
    return id
  modify fun s => { s with pools := s.pools ++ [ids] }
  settle

/-- The workers of a pool that have not left. -/
def remaining (pool : List Nat) : StateM Simulation (List Nat) := do
  let s ← get
  return pool.filter fun id => (s.tasks.lookup id).isSome

/-- Wait for the workers of a pool to leave. Those who are there at the deadline are dismissed
before anything else happens at that time; the result is how many. -/
def awaitPool (pool : List Nat) (deadline : Nat) : Nat → StateM Simulation Nat
  | 0 => return 0
  | ticks + 1 => do
      let ids ← remaining pool
      if ids.isEmpty then return 0
      match (← nextTime?).filter (· < deadline) with
      | some time => do
          tick time
          awaitPool pool deadline ticks
      | none => do
          setTime deadline
          ids.forM dismiss
          fire
          settle
          return ids.length

/-- Wait for the oldest pool that nobody has waited for. -/
def join? (grace : Nat) : StateM Simulation (Option Nat) := do
  let s ← get
  match s.pools with
  | [] => return none
  | pool :: rest => do
      set { s with pools := rest }
      return some (← awaitPool pool (s.now + grace) (grace + 1))

/-! ## Calls -/

/-- Start a call and let everything happen that needs no time. -/
def start (call : Call) : StateM Simulation Nat := do
  let id ← spawn fun _ => .call call
  settle
  return id

/-- Take the result of a call, if it has one. -/
def take? (id : Nat) : StateM Simulation (Option CallResult) := do
  match (← get).tasks.lookup id with
  | some (.call (.finished result)) => do
      removeTask id
      return some result
  | _ => return none

/-- Make a call, which goes on in the background under a name if it has to wait. -/
def run (name : String) (call : Call) : StateM Simulation (Option CallResult) := do
  let id ← start call
  match ← take? id with
  | some result => return some result
  | none => do
      modify fun s => { s with
        background := (name, id) :: s.background.filter (·.1 != name) }
      return none

/-- Stop looking at a call in the background. -/
def forget (name : String) : StateM Simulation Unit :=
  modify fun s => { s with background := s.background.filter (·.1 != name) }

/-- The call in the background with a name. -/
def inBackground? (name : String) : StateM Simulation (Option Nat) :=
  return (← get).background.lookup name

/-- The result of a call in the background, once it has one. Outside of it there is no such
call. -/
def check? (name : String) : StateM Simulation (Option (Option CallResult)) := do
  match ← inBackground? name with
  | none => return none
  | some id => do
      let result ← take? id
      if result.isSome then forget name
      return some result

/-- Drop a call in the background, and say whether there was one. -/
def abort (name : String) : StateM Simulation Bool := do
  match ← inBackground? name with
  | none => return false
  | some id => do
      forget name
      update (·.dropSender id)
      removeTask id
      settle
      return true

/-- Let time pass until a call is finished. At a time at which it can go on, it does so before
anybody else. -/
def awaitCall (id : Nat) : Nat → StateM Simulation (Option CallResult)
  | 0 => return none
  | ticks + 1 => do
      match ← take? id with
      | some result => return some result
      | none => do
          match ← nextTime? with
          | none => return none
          | some time => do
              setTime time
              fire
              if (← get).ready.contains id then putFirst id
              settle
              awaitCall id ticks

/-- Run the processor for an order and wait for its end. -/
def process (order : Order) : StateM Simulation (Option CallResult) := do
  awaitCall (← start (.process order)) maxMoves

/-! ## The end -/

/-- Stop the queue. -/
def stop : StateM Simulation Unit := do
  update (·.stop)
  settle

/-- Give the shutdown signal. Everybody looks at it. -/
def shutDown : StateM Simulation Unit := do
  update (·.cancel)
  (← get).tasks.forM fun t => wake t.1
  settle

/-- The attempts that have been started since they were last looked at, with their times. -/
def takeAttempts : StateM Simulation (List (Nat × OrderNumber)) :=
  modifyGet fun s => (s.attempts, { s with attempts := [] })

end Rewards.Simulation
