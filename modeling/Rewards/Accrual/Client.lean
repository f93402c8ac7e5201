import Rewards.Accrual.Outcome
import Rewards.Decimal.Json
import Rewards.Http.SessionToken
import Rewards.Json.Record
import Rewards.Order.Number
import Rewards.Text.Natural

/-!
# Asking the accrual system

The accrual system is asked for one order at a time. This module says which address is asked and
what an answer means; redirects have been followed before the answer arrives here.
-/

namespace Rewards.Accrual

/-- An answer to a request. The names of headers are in lower case. The body is missing if it could
not be read to its end. -/
structure Answer where
  status : Nat
  headers : List (String × List UInt8)
  body : Option (List UInt8)

/-- The address without its trailing slashes. -/
def trimSlashes (base : String) : String :=
  String.ofList (base.toList.reverse.dropWhile (· == '/')).reverse

/-- The address of an order. -/
def orderUrl (base : String) (number : OrderNumber) : String :=
  trimSlashes base ++ "/api/orders/" ++ number.text

/-- The document in the body of an answer. -/
structure Report where
  order : String
  status : String
  accrual : Option Json.Number
deriving DecidableEq

namespace Report

/-- A document that is being read. -/
structure Partial where
  order : Option String
  status : Option String
  accrual : Option (Option Json.Number)

/-- The fields in their order. -/
def fields : List (Json.Field Partial) :=
  [ ⟨"order", .required, (·.order.isSome),
      fun p => do return { p with order := some (← Json.Reader.string "a string") }⟩,
    ⟨"status", .required, (·.status.isSome),
      fun p => do return { p with status := some (← Json.Reader.string "a string") }⟩,
    ⟨"accrual", .defaulted, (·.accrual.isSome), fun p => do
      let number ← Json.Reader.optional (Json.Reader.onlyNumber "a JSON number")
      return { p with accrual := some number }⟩ ]

/-- Read a document. -/
def reader : Json.Reader Report := do
  match ← Json.Reader.record "struct AccrualResponse" fields ⟨none, none, none⟩ with
  | ⟨some order, some status, accrual⟩ => pure ⟨order, status, accrual.join⟩
  | _ => Json.Reader.malformed

/-- The amount of a processed order; nothing if there is none. -/
def amount (r : Report) : Except AccrualError Decimal :=
  match r.accrual with
  | none => .ok .zero
  | some number =>
      match Decimal.ofNumber number with
      | .error e => .error (.unexpected e.message)
      | .ok amount =>
          if amount.isNegative then .error (.unexpected s!"negative accrual {amount.toText}")
          else .ok amount

/-- What a document says. -/
def outcome (r : Report) : Except AccrualError AccrualOutcome :=
  if r.status = "REGISTERED" ∨ r.status = "PROCESSING" then .ok .notReady
  else if r.status = "INVALID" then .ok .invalid
  else if r.status = "PROCESSED" then r.amount.map .resolved
  else .error (.unexpected ("unknown order status " ++ r.status))

/-- The document is about another order. -/
def namesAnother (r : Report) (number : OrderNumber) : Bool := r.order != number.text

end Report

/-- The wait that the first header for it asks for, in milliseconds: a positive whole number of
seconds. -/
def retryAfter? (headers : List (String × List UInt8)) : Option Nat := do
  let cs ← Http.visibleText? (← (Http.valuesOf headers "retry-after").head?)
  let seconds ← Text.natural? (1 <<< 64) (Text.strip cs)
  if seconds = 0 then none else some (seconds * 1000)

/-- Read the document in a body. -/
def readReport (body : List UInt8) : Except AccrualError Report :=
  match Json.Reader.run Report.reader body with
  | .ok report => .ok report
  | .error e => .error (.unexpected ("malformed body: " ++ e.message))

/-- What an answer means. An answer whose body breaks off counts as no answer. -/
def Answer.outcome (a : Answer) : Except AccrualError AccrualOutcome :=
  if a.status = 200 then
    match a.body with
    | none => .error (.transport "error decoding response body")
    | some body => do (← readReport body).outcome
  else if a.status = 204 then .ok .notFound
  else if a.status = 429 ∨ (500 ≤ a.status ∧ a.status < 600) then
    .ok (.throttled (retryAfter? a.headers))
  else .error (.unexpected s!"unexpected status code {a.status}")

/-- What a request comes to, whether or not there is an answer. -/
def outcomeOf : Option Answer → Except AccrualError AccrualOutcome
  | some answer => answer.outcome
  | none => .error (.transport "error sending request")

end Rewards.Accrual
