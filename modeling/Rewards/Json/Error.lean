import Rewards.Json.Number
import Rewards.Text.Quoted

/-!
# Why a JSON document is refused

A document can fail to be JSON, hold a value of the wrong kind, or hold a value that a rule of the
domain refuses. The wordings name the value that was found and what should stand in its place.
-/

namespace Rewards.Json

/-- A value as it is named in a refusal. -/
inductive Found where
  | null
  | boolean (b : Bool)
  | number (n : Number)
  | text (s : String)
  | sequence
  | map
deriving DecidableEq

/-- The name of a value. -/
def Found.describe : Found → String
  | .null => "null"
  | .boolean b => "boolean " ++ "`" ++ (if b then "true" else "false") ++ "`"
  | .number (.float x) => "floating point " ++ "`" ++ x.toText ++ "`"
  | .number n => "integer " ++ "`" ++ n.toText ++ "`"
  | .text s => "string " ++ Text.quoted s
  | .sequence => "sequence"
  | .map => "map"

/-- Why a document is refused. `malformed` is text that is not JSON, or a value whose text does
not read as what it should be; `refused` is the word of a domain rule. After an `overflow` there is
no verdict: the document is abandoned. -/
inductive Error where
  | malformed
  | invalidType (found : Found) (expected : String)
  | invalidLength (length : Nat) (expected : String)
  | missingField (name : String)
  | duplicateField (name : String)
  | refused (reason : String)
  | overflow
deriving DecidableEq

/-- The wording of a refusal. -/
def Error.message : Error → String
  | .malformed => "<json>"
  | .invalidType found expected => "invalid type: " ++ found.describe ++ ", expected " ++ expected
  | .invalidLength length expected => s!"invalid length {length}, expected " ++ expected
  | .missingField name => "missing field " ++ "`" ++ name ++ "`"
  | .duplicateField name => "duplicate field " ++ "`" ++ name ++ "`"
  | .refused reason => reason
  | .overflow => "attempt to add with overflow"

end Rewards.Json
