import Rewards.Json.Value
import Rewards.Text.Utf8

/-!
# Requests and responses
-/

namespace Rewards.Http

/-- A request. The names of headers are in lower case, their values are bytes. -/
structure Request where
  method : String
  target : String
  headers : List (String × List UInt8)
  body : List UInt8

/-- The path of a request, without its query. -/
def Request.path (r : Request) : String :=
  String.ofList (r.target.toList.takeWhile (· != '?'))

/-- The values of the headers with a name, in their order. -/
def valuesOf (headers : List (String × List UInt8)) (name : String) : List (List UInt8) :=
  (headers.filter (·.1 == name)).map (·.2)

/-- The text of a header value, if it is visible ASCII. -/
def visibleText? (value : List UInt8) : Option (List Char) :=
  if value.all fun b => (32 ≤ b && b < 127) || b == 9 then
    some (value.map fun b => Char.ofNat b.toNat)
  else none

/-- A response. -/
structure Response where
  status : Nat
  headers : List (String × String)
  body : String
deriving DecidableEq

namespace Response

/-- A response without a body. -/
def empty (status : Nat) : Response := ⟨status, [], ""⟩

/-- A response with a JSON document. -/
def json (status : Nat) (value : Json.Value) : Response :=
  ⟨status, [("content-type", "application/json")], value.toText⟩

/-- A response with a plain text. -/
def text (status : Nat) (body : String) : Response :=
  ⟨status, [("content-type", "text/plain; charset=utf-8")], body⟩

/-- The response with one more header. -/
def withHeader (r : Response) (name value : String) : Response :=
  { r with headers := r.headers ++ [(name, value)] }

/-- The response without its body. -/
def withoutBody (r : Response) : Response := { r with body := "" }

/-- The response as it is sent: a request for the head gets no body. -/
def sentTo (r : Response) (request : Request) : Response :=
  if request.method = "HEAD" then r.withoutBody else r

/-- A refusal with a code and a message. -/
def refusal (status : Nat) (code message : String) : Response :=
  json status (.sorted [("error", .text code), ("message", .text message)])

end Response

/-- A line of the access log. -/
structure LogEntry where
  method : String
  target : String
  status : Nat
  size : Nat
deriving DecidableEq

/-- The line for a request and its response. The size is that of the whole body, also where only
the head is sent. -/
def LogEntry.of (request : Request) (response : Response) : LogEntry :=
  ⟨request.method, request.target, response.status, (Text.utf8 response.body).length⟩

end Rewards.Http
