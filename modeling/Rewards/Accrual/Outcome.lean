import Rewards.Decimal.Basic

/-!
# Answers of the accrual system

What the accrual system says about one order, and how asking it can fail.
-/

namespace Rewards

/-- What the accrual system says about an order. A wait is in milliseconds. -/
inductive AccrualOutcome where
  | resolved (amount : Decimal)
  | invalid
  | notReady
  | notFound
  | throttled (wait : Option Nat)
deriving DecidableEq

/-- How asking the accrual system fails: nothing came back, or something that the protocol does not
allow. -/
inductive AccrualError where
  | transport (reason : String)
  | unexpected (reason : String)
deriving DecidableEq

namespace AccrualError

/-- The wording of a failure. -/
def message : AccrualError → String
  | .transport reason => "accrual request failed: " ++ reason
  | .unexpected reason => "unexpected accrual response: " ++ reason

/-- Asking again may help. -/
def isTransient : AccrualError → Bool
  | .transport _ => true
  | .unexpected _ => false

end AccrualError

end Rewards
