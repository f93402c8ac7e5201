import Rewards.Failure
import Rewards.Ledger.Withdrawal

/-!
# Why the store refuses

A store operation is refused for a reason, or it is abandoned because a sum does not fit a decimal.
Neither changes the store.
-/

namespace Rewards

/-- Why an operation of the store is refused. -/
inductive StoreError where
  | orderOwnedByAnotherUser (number : OrderNumber)
  | orderNotFound (number : OrderNumber)
  | loginTaken (login : String)
  | withdrawal (e : WithdrawalError)
  | domain (e : DomainError)
  | storage (reason : String)
deriving DecidableEq

/-- The wording of a refusal. -/
def StoreError.message : StoreError → String
  | .orderOwnedByAnotherUser number => s!"order {number.text} was uploaded by another user"
  | .orderNotFound number => s!"order {number.text} not found"
  | .loginTaken login => s!"login {login} is already taken"
  | .withdrawal e => e.message
  | .domain e => e.message
  | .storage reason => "storage error: " ++ reason

/-- The wording of a sum that is too long. -/
def overflowMessage : String := "Addition overflowed"

end Rewards
