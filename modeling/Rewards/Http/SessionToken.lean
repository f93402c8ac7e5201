import Rewards.Http.Message
import Rewards.Text.Blank
import Rewards.Text.Split

/-!
# The session token of a request

A token comes in the first authorization header or, failing that, in a cookie.
-/

namespace Rewards.Http

/-- The name of the cookie with the token. -/
def cookieName : String := "auth_token"

/-- The text, unless it is empty. -/
def nonEmpty? (cs : List Char) : Option String :=
  if cs.isEmpty then none else some (String.ofList cs)

/-- The mark before a token in a header. -/
def bearerMark : List Char := "Bearer ".toList

/-- The token of the first authorization header. -/
def bearerToken? (headers : List (String × List UInt8)) : Option String := do
  let cs ← visibleText? (← (valuesOf headers "authorization").head?)
  if bearerMark.isPrefixOf cs then nonEmpty? (Text.strip (cs.drop bearerMark.length)) else none

/-- The pairs of names and values in a cookie header. -/
def cookiePairs (value : List Char) : List (List Char × List Char) :=
  (Text.split ';' value).filterMap fun pair => Text.splitFirst? '=' (Text.strip pair)

/-- The token of the first cookie with the right name. -/
def cookieToken? (headers : List (String × List UInt8)) : Option String := do
  let pairs := ((valuesOf headers "cookie").filterMap visibleText?).flatMap cookiePairs
  let (_, token) ← pairs.find? (·.1 == cookieName.toList)
  nonEmpty? (Text.strip token)

/-- The session token of a request. -/
def token? (headers : List (String × List UInt8)) : Option String :=
  bearerToken? headers <|> cookieToken? headers

/-- The header that gives a token to a client. -/
def bearerValue (token : String) : String := "Bearer " ++ token

/-- The cookie that gives a token to a client. -/
def cookieValue (token : String) : String := cookieName ++ "=" ++ token ++ "; HttpOnly; Path=/"

end Rewards.Http
