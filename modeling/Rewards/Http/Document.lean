import Rewards.Http.Message
import Rewards.Json.Record
import Rewards.Service.Error

/-!
# The documents of the interface
-/

namespace Rewards

/-- An order as its user sees it. The accrual shows when it is final. -/
def Order.document (o : Order) : Json.Value :=
  .sorted ([("number", o.number.toJson), ("status", .text o.status.toText),
      ("uploaded_at", .text o.uploadedAt.toText)] ++
    (if o.status.isTerminal then [("accrual", o.accrual.toJson)] else []))

/-- A withdrawal as its user sees it. -/
def LedgerEntry.document (e : LedgerEntry) : Json.Value :=
  .sorted [("order", e.order.toJson), ("sum", e.withdrawnSum.toJson),
    ("processed_at", .text e.processedAt.toText)]

/-- The answer to a refused request. -/
def ServiceError.response : ServiceError → Http.Response
  | .invalidFields fields =>
      .json 422 (.sorted [("error", .text "invalid_credentials"),
        ("message", .text "login or password does not meet the requirements"),
        ("fields", .array (fields.map InvalidField.toJson))])
  | .invalidOrderNumber e => .refusal 422 "invalid_order_number" e.message
  | .invalidAmount e => .refusal 422 "invalid_sum" e.message
  | .loginTaken => .refusal 409 "login_taken" "login is already taken"
  | .orderOwnedByAnotherUser =>
      .refusal 409 "order_conflict" "order was uploaded by another user"
  | .badCredentials => .refusal 401 "bad_credentials" "wrong login or password"
  | .insufficientFunds e => .refusal 402 "insufficient_funds" e.message
  | .internal _ => .refusal 500 "internal_error" "internal server error"

namespace Http

/-- What a client asks to withdraw: the sum is a number as it was sent. -/
structure WithdrawRequest where
  order : String
  sum : Json.Number
deriving DecidableEq

namespace WithdrawRequest

/-- A request that is being read. -/
structure Partial where
  order : Option String
  sum : Option Json.Number

/-- The fields in their order. -/
def fields : List (Json.Field Partial) :=
  [ ⟨"order", .required, (·.order.isSome),
      fun p => do return { p with order := some (← Json.Reader.string "a string") }⟩,
    ⟨"sum", .required, (·.sum.isSome),
      fun p => do return { p with sum := some (← Json.Reader.onlyNumber "a JSON number") }⟩ ]

/-- Read a request from a JSON document. -/
def reader : Json.Reader WithdrawRequest := do
  match ← Json.Reader.record "struct WithdrawRequest" fields ⟨none, none⟩ with
  | ⟨some order, some sum⟩ => pure ⟨order, sum⟩
  | _ => Json.Reader.malformed

end WithdrawRequest

end Http

end Rewards
