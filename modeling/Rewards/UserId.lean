import Rewards.DomainError
import Rewards.Json.Reader
import Rewards.Json.Value
import Rewards.Uuid

/-!
# User identifiers
-/

namespace Rewards

/-- The identifier of a registered user. -/
structure UserId where
  uuid : Uuid
deriving DecidableEq

namespace UserId

instance : Inhabited UserId := ⟨⟨default⟩⟩

/-- The text of an identifier. -/
def toText (id : UserId) : String := id.uuid.toText

/-- Read the text of an identifier. -/
def read (s : String) : Except DomainError UserId :=
  match Uuid.read s with
  | .ok uuid => .ok ⟨uuid⟩
  | .error e => .error (.invalidId ("UserId: " ++ e.message))

/-- An identifier as a JSON value. -/
def toJson (id : UserId) : Json.Value := .text id.toText

/-- Read an identifier from a JSON document. -/
def reader : Json.Reader UserId := do
  let s ← Json.Reader.string "a formatted UUID string"
  match Uuid.read s with
  | .ok uuid => pure ⟨uuid⟩
  | .error _ => Json.Reader.malformed

end UserId

end Rewards
