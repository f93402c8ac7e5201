import Rewards.Crypto.Base64
import Rewards.Crypto.Sha256
import Rewards.Session.Claims
import Rewards.Session.Header
import Rewards.Text.Split

/-!
# Session tokens

A token is a header, claims and a signature, each in base 64, with points between them. The
signature is an authentication code of the two parts before it under a secret. A token with any
other signature is refused before its claims are read.
-/

namespace Rewards.Session

/-- Why a text is not a token. -/
inductive TokenFault where
  | shape
  | base64
  | json (e : Json.Error)
  | algorithm
  | signature
  | audience
deriving DecidableEq

/-- The wording of a fault. -/
def TokenFault.message : TokenFault → String
  | .shape => "InvalidToken"
  | .base64 => "Base64 error"
  | .json e => "JSON error: " ++ e.message
  | .algorithm => "InvalidAlgorithm"
  | .signature => "InvalidSignature"
  | .audience => "InvalidAudience"

/-- Why a session is refused. -/
inductive SessionError where
  | invalidToken (fault : TokenFault)
  | claims (e : ClaimsError)
deriving DecidableEq

/-- The wording of a refusal. -/
def SessionError.message : SessionError → String
  | .invalidToken fault => "invalid token: " ++ fault.message
  | .claims e => e.message

/-- The secret of the signatures, and how many seconds a session lasts. -/
structure Issuer where
  secret : List UInt8
  lifetime : Int

/-- The usual lifetime: a day. -/
def defaultLifetime : Int := 24 * 3600

/-- An issuer of sessions that last a day. -/
def Issuer.ofSecret (secret : String) : Issuer := ⟨Text.utf8 secret, defaultLifetime⟩

/-- A part of a token: the text of a JSON value in base 64. -/
def encodePart (value : Json.Value) : List Char :=
  Crypto.Base64.encode Crypto.Base64.urlAlphabet (Text.utf8 value.toText)

/-- The signature of a message. -/
def signature (secret : List UInt8) (message : List Char) : List Char :=
  Crypto.Base64.encode Crypto.Base64.urlAlphabet
    (Crypto.Sha256.hmac secret (Text.utf8 (String.ofList message)))

/-- The token of claims. -/
def sign (secret : List UInt8) (claims : Claims) : String :=
  let message := encodePart header ++ '.' :: encodePart claims.toJson
  String.ofList (message ++ '.' :: signature secret message)

/-- A token for a user from now on, for a session of this many nanoseconds. There is none if it
would end beyond the time line. -/
def Issuer.issueFor? (issuer : Issuer) (nanos : Int) (user : UserId) (now : Instant) :
    Option String := do
  let expiresAt ← now.add? nanos
  return sign issuer.secret ⟨user, now, expiresAt⟩

/-- A token for a user from now on, for a session of the usual length. -/
def Issuer.issue? (issuer : Issuer) (user : UserId) (now : Instant) : Option String :=
  issuer.issueFor? (issuer.lifetime * Instant.nanosPerSecond) user now

/-- Read a part of a token. -/
def readPart {α : Type} (reader : Json.Reader α) (part : List Char) : Except TokenFault α :=
  match Crypto.Base64.decode Crypto.Base64.urlAlphabet part with
  | none => .error .base64
  | some bytes =>
      match Json.Reader.run reader bytes with
      | .ok value => .ok value
      | .error e => .error (.json e)

/-- The value names the audience of a token. -/
def namesAudience : Json.Value → Bool
  | .text _ => true
  | .array items => items.all fun item => match item with
    | .text _ => true
    | _ => false
  | _ => false

/-- The registered claims seen so far, and whether one of them names an audience. -/
structure Registered where
  seen : List String
  hasAudience : Bool

/-- Skip the value of a numeric date. An array or a map there has to be empty. -/
def skipDate : Json.Reader Unit := do
  let next ← Json.Reader.peek
  if next == some (Json.byte '[') then do Json.Reader.skip; Json.Reader.mark ']'
  else if next == some (Json.byte '\x7b') then do Json.Reader.skip; Json.Reader.mark '\x7d'
  else Json.Reader.ignored

/-- A registered claim that has no effect. -/
def idleClaim (name : String) (presence : Json.Presence) (skip : Json.Reader Unit) :
    Json.Field Registered where
  name := name
  presence := presence
  isSet := (·.seen.contains name)
  read := fun r => do
    skip
    return { r with seen := name :: r.seen }

/-- The registered claims in their order. -/
def registeredFields : List (Json.Field Registered) :=
  [ idleClaim "exp" .defaulted skipDate,
    idleClaim "nbf" .defaulted skipDate,
    idleClaim "sub" .nullable Json.Reader.ignored,
    idleClaim "iss" .nullable Json.Reader.ignored,
    ⟨"aud", .nullable, (·.seen.contains "aud"), fun r => do
      let value ← Json.Reader.value
      return ⟨"aud" :: r.seen, namesAudience value⟩⟩ ]

/-- Read the registered claims and say whether there is an audience. -/
def audienceReader : Json.Reader Bool := do
  let start : Registered := ⟨[], false⟩
  return (← Json.Reader.record "struct ClaimsForValidation" registeredFields start).hasAudience

/-- The header, the claims and the signature of a token, and the message that is signed. -/
structure Parts where
  message : List Char
  header : List Char
  claims : List Char
  signature : List Char

/-- Split a token at its last two points. -/
def split (token : List Char) : Except TokenFault Parts :=
  match Text.splitLast? '.' token with
  | none => .error .shape
  | some (message, signature) =>
      match Text.splitLast? '.' message with
      | none => .error .shape
      | some (header, claims) => .ok ⟨message, header, claims, signature⟩

/-- The claims of a token with a good signature. -/
def readToken (secret : List UInt8) (token : List Char) : Except TokenFault Claims := do
  let parts ← split token
  let algorithm ← readPart headerReader parts.header
  if algorithm ≠ .hs256 then throw .algorithm
  if signature secret parts.message ≠ parts.signature then throw .signature
  let claims ← readPart Claims.reader parts.claims
  if ← readPart audienceReader parts.claims then throw .audience
  return claims

/-- The claims of a token that holds now. -/
def Issuer.validate (issuer : Issuer) (token : String) (now : Instant) :
    Except SessionError Claims :=
  match readToken issuer.secret token.toList with
  | .error fault => .error (.invalidToken fault)
  | .ok claims =>
      match claims.check now with
      | .error e => .error (.claims e)
      | .ok () => .ok claims

end Rewards.Session
