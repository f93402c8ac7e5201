import Rewards.Decimal.Addition
import Rewards.Ledger.Entry

/-!
# Balances

The balance of a user is a fold of the user's ledger entries. There is none if a sum on the way
does not fit a decimal.
-/

namespace Rewards

/-- What a user has now and has withdrawn so far. -/
structure Balance where
  current : Decimal
  withdrawn : Decimal
deriving DecidableEq

namespace Balance

/-- The balance without any movement. -/
def zero : Balance := ⟨.zero, .zero⟩

/-- The balance after a movement. -/
def move? (b : Balance) (amount : Decimal) : Option Balance := do
  let current ← b.current.add? amount
  if amount.isNegative then
    let withdrawn ← b.withdrawn.add? amount.abs
    return ⟨current, withdrawn⟩
  else return ⟨current, b.withdrawn⟩

/-- The balance after movements in their order. -/
def ofAmounts? (amounts : List Decimal) : Option Balance :=
  amounts.foldlM move? zero

/-- The balance of ledger entries in their order. -/
def ofEntries? (entries : List LedgerEntry) : Option Balance :=
  ofAmounts? (entries.map (·.amount))

/-- A balance as a client sees it. -/
def toJson (b : Balance) : Json.Value :=
  .object [("current", b.current.toJson), ("withdrawn", b.withdrawn.toJson)]

end Balance

end Rewards
