import Rewards.Ledger.Balance

/-!
# Withdrawals

A withdrawal takes a positive whole number of hundredths from a balance that covers it.
-/

namespace Rewards

/-- Why an amount cannot be withdrawn. -/
inductive WithdrawalError where
  | nonPositiveAmount (amount : Decimal)
  | tooPrecise (amount : Decimal)
  | insufficientFunds (requested available : Decimal)
deriving DecidableEq

/-- The wording of a failed withdrawal. -/
def WithdrawalError.message : WithdrawalError → String
  | .nonPositiveAmount amount => s!"withdrawal sum must be positive, got {amount.toText}"
  | .tooPrecise amount => s!"withdrawal sum {amount.toText} has more than two fractional digits"
  | .insufficientFunds requested available =>
      s!"insufficient funds: requested {requested.toText}, available {available.toText}"

/-- A withdrawal with a valid amount. -/
structure Withdrawal where
  order : OrderNumber
  user : UserId
  amount : Decimal
  isPositive : amount.isPositive = true
  fitsCurrency : amount.fitsCurrencyScale = true
deriving DecidableEq

namespace Withdrawal

/-- The withdrawal of an amount, if the amount is positive and a whole number of hundredths. -/
def request (order : OrderNumber) (user : UserId) (amount : Decimal) :
    Except WithdrawalError Withdrawal :=
  if hp : amount.isPositive = true then
    if hf : amount.fitsCurrencyScale = true then .ok ⟨order, user, amount, hp, hf⟩
    else .error (.tooPrecise amount)
  else .error (.nonPositiveAmount amount)

/-- The withdrawal is covered by what the user has. -/
def checkFunds (w : Withdrawal) (current : Decimal) : Except WithdrawalError Unit :=
  if current.lt w.amount then .error (.insufficientFunds w.amount current) else .ok ()

/-- The ledger entry of the withdrawal. -/
def toEntry (w : Withdrawal) (processedAt : Instant) : LedgerEntry :=
  ⟨w.order, w.user, w.amount.neg, processedAt⟩

end Withdrawal

end Rewards
