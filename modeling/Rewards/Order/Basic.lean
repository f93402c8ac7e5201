import Rewards.Decimal.Basic
import Rewards.Order.Number
import Rewards.Order.Status
import Rewards.Time.Instant
import Rewards.UserId

/-!
# Orders

An order belongs to the user who first uploaded its number. Its accrual is nothing until it is
processed.
-/

namespace Rewards

/-- An uploaded order. -/
structure Order where
  number : OrderNumber
  owner : UserId
  status : OrderStatus
  accrual : Decimal
  uploadedAt : Instant
deriving DecidableEq

namespace Order

/-- An order that has just been uploaded. -/
def upload (number : OrderNumber) (owner : UserId) (uploadedAt : Instant) : Order :=
  ⟨number, owner, .new, .zero, uploadedAt⟩

/-- The order belongs to the user. -/
def isOwnedBy (o : Order) (user : UserId) : Bool := o.owner == user

/-- Move the order one step forward. -/
def advance (o : Order) (next : OrderStatus) : Except DomainError Order :=
  if o.status.canBecome next then .ok { o with status := next }
  else
    .error (.invariant
      s!"order {o.number.text} cannot move from {o.status.toText} to {next.toText}")

/-- Start to process a new order. -/
def start (o : Order) : Except DomainError Order := o.advance .processing

/-- Finish an order with the amount that it earns. -/
def resolve (o : Order) (accrual : Decimal) : Except DomainError Order :=
  if accrual.isNegative then
    .error (.validation s!"accrual must not be negative, got {accrual.toText}")
  else
    match o.advance .processed with
    | .ok order => .ok { order with accrual := accrual }
    | .error e => .error e

/-- Finish an order that earns nothing because it is not valid. -/
def reject (o : Order) : Except DomainError Order := o.advance .invalid

end Order

end Rewards
