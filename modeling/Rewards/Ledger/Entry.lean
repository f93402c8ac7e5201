import Rewards.Decimal.Json
import Rewards.Json.Record
import Rewards.Order.Basic
import Rewards.Time.Json

/-!
# Ledger entries

The ledger is a list of signed movements. A positive amount is a credit for a processed order, a
negative one is a withdrawal.
-/

namespace Rewards

/-- One movement of a balance. -/
structure LedgerEntry where
  order : OrderNumber
  user : UserId
  amount : Decimal
  processedAt : Instant
deriving DecidableEq

namespace LedgerEntry

/-- The entry takes points away. -/
def isWithdrawal (e : LedgerEntry) : Bool := e.amount.isNegative

/-- The amount that a withdrawal takes away. -/
def withdrawnSum (e : LedgerEntry) : Decimal := e.amount.abs

/-- An entry as a JSON value. The amount is a string, which keeps its scale. -/
def toJson (e : LedgerEntry) : Json.Value :=
  .object [("order_number", e.order.toJson), ("user_id", e.user.toJson),
    ("amount", .text e.amount.toText), ("processed_at", e.processedAt.toJson)]

/-- An entry that is being read. -/
structure Partial where
  order : Option OrderNumber
  user : Option UserId
  amount : Option Decimal
  processedAt : Option Instant

/-- The fields of an entry in their order. -/
def fields : List (Json.Field Partial) :=
  [ ⟨"order_number", .required, (·.order.isSome),
      fun p => do return { p with order := some (← OrderNumber.reader) }⟩,
    ⟨"user_id", .required, (·.user.isSome),
      fun p => do return { p with user := some (← UserId.reader) }⟩,
    ⟨"amount", .required, (·.amount.isSome),
      fun p => do return { p with amount := some (← Decimal.reader) }⟩,
    ⟨"processed_at", .required, (·.processedAt.isSome),
      fun p => do return { p with processedAt := some (← Instant.reader) }⟩ ]

/-- Read an entry from a JSON document. -/
def reader : Json.Reader LedgerEntry := do
  match ← Json.Reader.record "struct LedgerEntry" fields ⟨none, none, none, none⟩ with
  | ⟨some order, some user, some amount, some processedAt⟩ =>
      pure ⟨order, user, amount, processedAt⟩
  | _ => Json.Reader.malformed

end LedgerEntry

end Rewards
