import Rewards.Http.Document
import Rewards.Http.SessionToken
import Rewards.Service.Basic

/-!
# Endpoints

What each endpoint does with a request. A response is sent after the processing of a new order has
been scheduled, whether or not the queue takes it.
-/

namespace Rewards.Http

/-- The endpoints of the interface. -/
inductive Endpoint where
  | ping
  | register
  | login
  | submitOrder
  | listOrders
  | balance
  | withdraw
  | listWithdrawals
deriving DecidableEq

/-- A response, and the order whose processing is scheduled before it is sent. -/
structure Reply where
  response : Response
  job : Option Order

/-- The handling of a request: a reply, a refusal, or nothing if a sum does not fit a decimal. -/
abbrev Handling (m : Type → Type) := ExceptT (Failure Response) m

namespace Handling

variable {m : Type → Type} [Monad m]

/-- Refuse a request. -/
def refuse {α : Type} (response : Response) : Handling m α := throw (.refused response)

/-- Use the result of an operation. -/
def ofOperation {α : Type} (operation : Operation m α) : Handling m α :=
  ExceptT.adapt (Failure.map ServiceError.response) operation

/-- Reply without scheduling anything. -/
def reply (response : Response) : Handling m Reply := pure ⟨response, none⟩

end Handling

/-- The longest body that is read, in bytes. -/
def maxBody : Nat := 2097152

namespace Endpoint

open Handling

variable {m : Type → Type} [Monad m]

/-- The body of a request, unless it is too long. -/
def readBody (request : Request) : Handling m (List UInt8) :=
  if maxBody < request.body.length then
    refuse (.text 413 "Failed to buffer the request body: length limit exceeded")
  else pure request.body

/-- The text of the body of a request. -/
def readText (request : Request) : Handling m String := do
  match Text.decodeUtf8 (← readBody request) with
  | .ok text => pure text
  | .error e => refuse (.text 400 ("Request body didn't contain valid UTF-8: " ++ e.message))

/-- The document in the body of a request. -/
def readDocument {α : Type} (reader : Json.Reader α) (request : Request) : Handling m α := do
  match reader.run (← readBody request) with
  | .ok document => pure document
  | .error e => refuse (.refusal 400 "malformed_request" e.message)

/-- Give a session token to the client. -/
def sessionResponse (token : String) : Response :=
  ((Response.json 200 (.object [("result", .boolean true)])).withHeader "authorization"
    (bearerValue token)).withHeader "set-cookie" (cookieValue token)

/-- A list of documents, or nothing if it is empty. -/
def listResponse (documents : List Json.Value) : Response :=
  if documents.isEmpty then .empty 204 else .json 200 (.array documents)

/-- Register a user or log in. -/
def credentials (operation : Credentials → Operation m String) (request : Request) :
    Handling m Reply := do
  let c ← readDocument Credentials.reader request
  let token ← ofOperation (operation c)
  reply (sessionResponse token)

/-- Upload an order number. -/
def submit (s : Service m) (user : UserId) (request : Request) : Handling m Reply := do
  let text ← readText request
  if (Text.trim text).isEmpty then
    refuse (.refusal 400 "empty_body" "order number is required")
  let submission ← ofOperation (s.submitOrder user text)
  match submission.result with
  | .accepted => return ⟨.empty 202, submission.job⟩
  | .alreadySubmitted => return ⟨.empty 200, submission.job⟩

/-- Withdraw points. -/
def withdrawPoints (s : Service m) (user : UserId) (request : Request) : Handling m Reply := do
  let wanted ← readDocument WithdrawRequest.reader request
  match Decimal.ofNumber wanted.sum with
  | .error e => refuse (.refusal 422 "invalid_sum" e.message)
  | .ok amount =>
      let withdrawn ← ofOperation (s.withdraw user wanted.order amount)
      return ⟨.empty 200, withdrawn.job⟩

/-- Handle a request of anybody. -/
def handleOpen (s : Service m) (e : Endpoint) (request : Request) : Handling m Reply := do
  match e with
  | .register => credentials s.register request
  | .login => credentials s.login request
  | _ =>
      ofOperation s.ping
      reply (.empty 200)

/-- Handle a request of a user. -/
def handle (s : Service m) (e : Endpoint) (user : UserId) (request : Request) :
    Handling m Reply := do
  match e with
  | .submitOrder => submit s user request
  | .listOrders =>
      let orders ← ofOperation (s.ordersOf user)
      reply (listResponse (orders.map Order.document))
  | .balance =>
      let balance ← ofOperation (s.balanceOf user)
      reply (.json 200 balance.toJson)
  | .withdraw => withdrawPoints s user request
  | .listWithdrawals =>
      let entries ← ofOperation (s.withdrawalsOf user)
      reply (listResponse (entries.map LedgerEntry.document))
  | e => handleOpen s e request

end Endpoint

end Rewards.Http
