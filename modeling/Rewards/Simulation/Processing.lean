import Rewards.Pipeline.Attempt
import Rewards.Simulation.Store

/-!
# Runs of the processor

A run for an order follows the script of the simulation. It makes all the steps that need no time
at once and then either ends or waits for a timer of the task that it belongs to.
-/

namespace Rewards.Simulation

open Pipeline

/-- What an attempt that waits for nothing has come to. -/
def progressOf : Attempt → Progress
  | .done result => .ended result
  | _ => .ended (.fatal "the attempt has not come to an end")

/-- Make the steps of an attempt up to the next wait. -/
def proceed (number : OrderNumber) (attempt : Attempt) : StateM Simulation Attempt :=
  attempt.advance store number Attempt.maxSteps

/-- Go on with the reply of the accrual system. A wait gets a timer unless it is over at once. -/
def hear (id : Nat) (order : Order) : ScriptedReply → StateM Simulation Progress
  | .gives answer => do return progressOf (← proceed order.number (Attempt.answer order answer))
  | .after milliseconds effect next => do
      if milliseconds = 0 then
        onBackend effect
        hear id order next
      else
        let wake := (← get).now + milliseconds
        addTimer id wake
        return .waiting (.delayed order wake effect next)

/-- Ask the accrual system about an order. -/
def ask (id : Nat) (order : Order) (replies : Agenda ScriptedReply) :
    StateM Simulation Progress := do
  modify fun s => { s with
    asked := s.asked ++ [order.number]
    processor := .asking (replies.dropUnlessLast order.number) }
  hear id order (Processor.nextReply replies order.number)

/-- Follow the script of an attempt. -/
def follow (id : Nat) : ScriptedAttempt → StateM Simulation Progress
  | .ends result => return .ended result
  | .crashes => return .crashed
  | .stalls milliseconds => do
      if milliseconds = 0 then return .ended .success
      let wake := (← get).now + milliseconds
      addTimer id wake
      return .waiting (.stalling wake)

/-- Start a run for an order. -/
def startRun (id : Nat) (number : OrderNumber) : StateM Simulation Progress := do
  modify fun s => { s with attempts := s.attempts ++ [(s.now, number)] }
  match (← get).processor with
  | .scripted attempts => do
      modify fun s => { s with processor := .scripted (attempts.drop number) }
      follow id (Processor.nextAttempt attempts number)
  | .asking replies => do
      match ← proceed number .reading with
      | .asking order => ask id order replies
      | attempt => return progressOf attempt

/-- Go on with a run that waits. -/
def continueRun (id : Nat) (run : Run) : StateM Simulation Progress := do
  let now := (← get).now
  match run with
  | .stalling wake => return if wake ≤ now then .ended .success else .waiting run
  | .delayed order wake effect next => do
      if wake ≤ now then
        onBackend effect
        hear id order next
      else return .waiting run

end Rewards.Simulation
