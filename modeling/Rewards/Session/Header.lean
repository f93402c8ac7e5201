import Rewards.Json.Record
import Rewards.Json.Value

/-!
# The header of a session token

The header names the algorithm of the signature. The other members that a header may have are
checked for their form and have no effect.
-/

namespace Rewards.Session

/-- The signature algorithms that a header may name. One of them is in use. -/
inductive Algorithm where
  | hs256
  | other
deriving DecidableEq

/-- The algorithm with a name. -/
def Algorithm.ofName? (name : String) : Option Algorithm :=
  if name = "HS256" then some .hs256
  else if name ∈ ["HS384", "HS512", "ES256", "ES384", "RS256", "RS384", "RS512", "PS256", "PS384",
      "PS512", "EdDSA"] then some .other
  else none

/-- A header that is being read: the members seen so far, and the algorithm. -/
structure HeaderDraft where
  seen : List String
  algorithm : Option Algorithm

/-- A member that a header may have and whose value has no effect. -/
def idleMember {α : Type} (name : String) (reader : Json.Reader α) : Json.Field HeaderDraft where
  name := name
  presence := .nullable
  isSet := (·.seen.contains name)
  read := fun draft => do
    let _ ← Json.Reader.optional reader
    return { draft with seen := name :: draft.seen }

/-- The text members that a key of this type must have. -/
def keyMembers (keyType : String) : Option (List String) :=
  if keyType = "EC" then some ["crv", "x", "y"]
  else if keyType = "RSA" then some ["n", "e"]
  else if keyType = "oct" then some ["k"]
  else if keyType = "OKP" then some ["crv", "x"]
  else none

/-- The member of a value is a text. -/
def hasText (value : Json.Value) (name : String) : Bool :=
  match value.field? name with
  | some (.text _) => true
  | _ => false

/-- Read an embedded key. -/
def keyReader : Json.Reader Unit := do
  if (← Json.Reader.peek) == some (Json.byte '\x7b') then do
    let value ← Json.Reader.value
    match value.field? "kty" with
    | some (.text keyType) =>
        match keyMembers keyType with
        | some members => if members.all (hasText value) then pure () else Json.Reader.malformed
        | none => Json.Reader.malformed
    | _ => Json.Reader.malformed
  else Json.Reader.unexpected "struct Jwk"

/-- A member that is a text. -/
def textMember (name : String) : Json.Field HeaderDraft :=
  idleMember name (Json.Reader.string "a string")

/-- The members of a header in their order. -/
def headerFields : List (Json.Field HeaderDraft) :=
  [ textMember "typ",
    ⟨"alg", .required, (·.algorithm.isSome), fun draft => do
      return { draft with algorithm := some (← Json.Reader.choice Algorithm.ofName?) }⟩,
    textMember "cty",
    textMember "jku",
    idleMember "jwk" keyReader,
    textMember "kid",
    textMember "x5u",
    idleMember "x5c" (Json.Reader.list (Json.Reader.string "a string")),
    textMember "x5t",
    textMember "x5t#S256" ]

/-- Read a header and its algorithm from a JSON document. -/
def headerReader : Json.Reader Algorithm := do
  let draft ← Json.Reader.record "struct Header" headerFields ⟨[], none⟩
  match draft.algorithm with
  | some algorithm => pure algorithm
  | none => Json.Reader.malformed

/-- The header that is sent. -/
def header : Json.Value :=
  .object [("typ", .text "JWT"), ("alg", .text "HS256")]

end Rewards.Session
