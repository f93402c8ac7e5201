import Rewards.Simulation.Processing

/-!
# Calls

The moves of calls from outside. A call that has its result is finished and stays until somebody
takes the result.
-/

namespace Rewards.Simulation

open Pipeline

/-- Change what a call is doing. -/
def setCall (id : Nat) (call : Call) : StateM Simulation Unit := setTask id (.call call)

/-- Finish a call. -/
def finishCall (id : Nat) (result : CallResult) : StateM Simulation Bool := do
  dropTimers id
  setCall id (.finished result)
  return false

/-- The result of a request: the response as it is sent, and the line of the access log. -/
def responded (request : Http.Request) (response : Http.Response) : CallResult :=
  .responded (response.sentTo request) (.of request response)

/-- Go on after a step of a sweep. -/
def sweepOn (id : Nat) : Sweep → StateM Simulation Bool
  | .bringing order rest queued => do
      setCall id (.sweeping (.bringing order rest queued))
      return true
  | .inLine rest queued => do
      setCall id (.sweeping (.inLine rest queued))
      return false
  | .ended queued => finishCall id (.swept (.ok queued))

/-- Go on once the queue has taken or refused an order. A refusal does not matter to a request. -/
def afterOffer (id : Nat) (outcome : Except QueueError Enqueued) :
    Purpose → StateM Simulation Bool
  | .report => finishCall id (.enqueued outcome)
  | .respond request response =>
      finishCall id (responded request response)

/-- Go on after an order has been brought to the queue. -/
def onOffer (id : Nat) (purpose : Purpose) : Offer → StateM Simulation Bool
  | .sent => afterOffer id (.ok .queued) purpose
  | .refused e => afterOffer id (.error e) purpose
  | .waits => do
      setCall id (.inLine purpose)
      return false

/-- Bring an order to the queue. -/
def bring (id : Nat) (order : Order) (purpose : Purpose) : StateM Simulation Bool := do
  match ← change (·.enqueue id order) with
  | none => afterOffer id (.ok .alreadyTracked) purpose
  | some offer => onOffer id purpose offer

/-- Serve a request. -/
def serveRequest (id : Nat) (request : Http.Request) : StateM Simulation Bool := do
  match ← Http.serve (service (← get).settings) request with
  | none => finishCall id .overflowed
  | some ⟨response, none⟩ => finishCall id (responded request response)
  | some ⟨response, some order⟩ => do
      setCall id (.bring order (.respond request response))
      return true

/-- Go on after a part of a run of the processor. -/
def afterProcessing (id : Nat) : Progress → StateM Simulation Bool
  | .ended result => finishCall id (.processed result)
  | .crashed => finishCall id .crashed
  | .waiting run => do
      setCall id (.processing run)
      return false

/-- A move of a call. -/
def moveCall (id : Nat) : Call → StateM Simulation Bool
  | .bring order purpose => bring id order purpose
  | .inLine purpose => do onOffer id purpose (← change (·.resumeSender id))
  | .sweep => do
      match ← Sweep.start store with
      | .ok sweep => sweepOn id sweep
      | .error e => finishCall id (.swept (.error e))
  | .sweeping sweep => do sweepOn id (← change fun s => sweep.step id s)
  | .request request => serveRequest id request
  | .awaitCancel => do
      if ← isCancelled then finishCall id .cancelled else return false
  | .process order => do afterProcessing id (← startRun id order.number)
  | .processing run => do afterProcessing id (← continueRun id run)
  | .finished _ => return false

end Rewards.Simulation
