import Rewards.Json.Record
import Rewards.Time.Json
import Rewards.UserId

/-!
# The claims of a session

A session names its user and the window of time in which it holds: from the instant of issue up to
the instant of expiry, which is not part of the window.
-/

namespace Rewards

/-- What a session token says. -/
structure Claims where
  subject : UserId
  issuedAt : Instant
  expiresAt : Instant
deriving DecidableEq

/-- Why claims do not hold. -/
inductive ClaimsError where
  | expired
  | notYetValid
  | invalidTimeWindow
deriving DecidableEq

/-- The wording of a refusal. -/
def ClaimsError.message : ClaimsError → String
  | .expired => "token has expired"
  | .notYetValid => "token not yet valid (issued_at is in the future)"
  | .invalidTimeWindow => "invalid token time window (expires_at <= issued_at)"

namespace Claims

/-- The claims hold at an instant. -/
def check (c : Claims) (now : Instant) : Except ClaimsError Unit :=
  if c.expiresAt.le c.issuedAt then .error .invalidTimeWindow
  else if now.lt c.issuedAt then .error .notYetValid
  else if c.expiresAt.le now then .error .expired
  else .ok ()

/-- Claims as a JSON value. -/
def toJson (c : Claims) : Json.Value :=
  .object [("sub", c.subject.toJson), ("issued_at", c.issuedAt.toJson),
    ("expires_at", c.expiresAt.toJson)]

/-- Claims that are being read. -/
structure Partial where
  subject : Option UserId
  issuedAt : Option Instant
  expiresAt : Option Instant

/-- The fields of claims in their order. -/
def fields : List (Json.Field Partial) :=
  [ ⟨"sub", .required, (·.subject.isSome),
      fun p => do return { p with subject := some (← UserId.reader) }⟩,
    ⟨"issued_at", .required, (·.issuedAt.isSome),
      fun p => do return { p with issuedAt := some (← Instant.reader) }⟩,
    ⟨"expires_at", .required, (·.expiresAt.isSome),
      fun p => do return { p with expiresAt := some (← Instant.reader) }⟩ ]

/-- Read claims from a JSON document. -/
def reader : Json.Reader Claims := do
  match ← Json.Reader.record "struct JwtClaims" fields ⟨none, none, none⟩ with
  | ⟨some subject, some issuedAt, some expiresAt⟩ => pure ⟨subject, issuedAt, expiresAt⟩
  | _ => Json.Reader.malformed

end Claims

end Rewards
