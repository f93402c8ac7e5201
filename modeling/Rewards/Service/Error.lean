import Rewards.Account.Credentials
import Rewards.Crypto.PasswordHash
import Rewards.Store.Error

/-!
# Why a request is refused
-/

namespace Rewards

/-- Why the service refuses a request. -/
inductive ServiceError where
  | invalidFields (fields : List InvalidField)
  | invalidOrderNumber (e : DomainError)
  | invalidAmount (e : WithdrawalError)
  | loginTaken
  | badCredentials
  | orderOwnedByAnotherUser
  | insufficientFunds (e : WithdrawalError)
  | internal (reason : String)
deriving DecidableEq

namespace ServiceError

/-- The wording of a refusal. -/
def message : ServiceError → String
  | .invalidFields _ => "invalid credentials"
  | .invalidOrderNumber e => "invalid order number: " ++ e.message
  | .invalidAmount e => e.message
  | .loginTaken => "login is already taken"
  | .badCredentials => "wrong login or password"
  | .orderOwnedByAnotherUser => "order was uploaded by another user"
  | .insufficientFunds e => e.message
  | .internal reason => "internal error: " ++ reason

/-- The refusal of the store as a refusal of the service. What a client can do nothing about is an
internal error. -/
def ofStore : StoreError → ServiceError
  | .loginTaken _ => .loginTaken
  | .orderOwnedByAnotherUser _ => .orderOwnedByAnotherUser
  | .withdrawal (.insufficientFunds requested available) =>
      .insufficientFunds (.insufficientFunds requested available)
  | .withdrawal e => .invalidAmount e
  | e => .internal e.message

/-- A failed hashing of a password as a refusal of the service. -/
def ofHashing (e : Crypto.PasswordHashError) : ServiceError := .internal e.message

end ServiceError

end Rewards
