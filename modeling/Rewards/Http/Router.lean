import Rewards.Http.Endpoint

/-!
# Routing

A request is routed by its path and then by its method. On a protected path the session is checked
before the method, so without a session nothing about the methods is done.
-/

namespace Rewards.Http

/-- A path with the endpoints of its methods. -/
structure Route where
  path : String
  methods : List (String × Endpoint)
  isProtected : Bool

/-- The routes of the interface. -/
def routes : List Route :=
  [ ⟨"/api/ping", [("GET", .ping)], false⟩,
    ⟨"/api/user/register", [("POST", .register)], false⟩,
    ⟨"/api/user/login", [("POST", .login)], false⟩,
    ⟨"/api/user/orders", [("POST", .submitOrder), ("GET", .listOrders)], true⟩,
    ⟨"/api/user/balance", [("GET", .balance)], true⟩,
    ⟨"/api/user/balance/withdraw", [("POST", .withdraw)], true⟩,
    ⟨"/api/user/withdrawals", [("GET", .listWithdrawals)], true⟩ ]

namespace Route

/-- The endpoint of a method. What may be got may also be asked for its head. -/
def endpoint? (route : Route) (method : String) : Option Endpoint :=
  let name := if method = "HEAD" then "GET" else method
  (route.methods.find? (·.1 == name)).map (·.2)

/-- The methods that are allowed. -/
def allow (route : Route) : String :=
  ",".intercalate (route.methods.map fun (name, _) => if name = "GET" then "GET,HEAD" else name)

end Route

section

variable {m : Type → Type} [Monad m]

open Handling

/-- The user whose session a request belongs to. -/
def authenticate (s : Service m) (request : Request) : Handling m UserId := do
  match token? request.headers with
  | none => refuse (.empty 401)
  | some token =>
      match s.issuer.validate token (← s.clock) with
      | .error _ => refuse (.empty 401)
      | .ok claims =>
          match ← s.store.userById claims.subject with
          | .error _ => refuse (.empty 500)
          | .ok none => refuse (.empty 401)
          | .ok (some user) => pure user.id

/-- Handle a request on a route. -/
def Route.handle (route : Route) (s : Service m) (request : Request) : Handling m Reply := do
  let endpoint := route.endpoint? request.method
  if route.isProtected then
    let user ← authenticate s request
    match endpoint with
    | some e => e.handle s user request
    | none => refuse (.empty 405)
  else
    match endpoint with
    | some e => e.handleOpen s request
    | none => refuse (.empty 405)

/-- The reply as the route gives it: it names the allowed methods if the method is not one of
them. -/
def Route.finish (route : Route) (request : Request) (reply : Reply) : Reply :=
  if (route.endpoint? request.method).isNone then
    { reply with response := reply.response.withHeader "allow" route.allow }
  else reply

/-- Serve a request. There is no reply if a sum does not fit a decimal. The body of the reply is
whole, also where only the head is to be sent. -/
def serve (s : Service m) (request : Request) : m (Option Reply) := do
  match routes.find? (·.path == request.path) with
  | none => return some ⟨.empty 404, none⟩
  | some route =>
      match ← route.handle s request with
      | .ok reply => return some (route.finish request reply)
      | .error (.refused response) => return some (route.finish request ⟨response, none⟩)
      | .error .overflow => return none

end

end Rewards.Http
