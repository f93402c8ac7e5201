import Rewards.DomainError
import Rewards.Json.Reader
import Rewards.Json.Value

/-!
# The life cycle of an order

An order is new, is then being processed, and ends as processed or invalid.
-/

namespace Rewards

/-- Where an order stands in its life cycle. -/
inductive OrderStatus where
  | new
  | processing
  | invalid
  | processed
deriving DecidableEq

namespace OrderStatus

/-- The name of a status. -/
def toText : OrderStatus → String
  | .new => "NEW"
  | .processing => "PROCESSING"
  | .invalid => "INVALID"
  | .processed => "PROCESSED"

/-- The status with a name. -/
def ofText? (s : String) : Option OrderStatus :=
  [new, processing, invalid, processed].find? (·.toText == s)

/-- Read the name of a status. -/
def parse (s : String) : Except DomainError OrderStatus :=
  match ofText? s with
  | some status => .ok status
  | none => .error (.validation ("unknown order status: " ++ s))

/-- The status never changes again. -/
def isTerminal : OrderStatus → Bool
  | .invalid => true
  | .processed => true
  | _ => false

/-- One step forward in the life cycle. -/
def canBecome : OrderStatus → OrderStatus → Bool
  | .new, .processing => true
  | .processing, .processed => true
  | .processing, .invalid => true
  | _, _ => false

/-- Read the name of a status from a JSON document. -/
def reader : Json.Reader OrderStatus := Json.Reader.choice ofText?

end OrderStatus

end Rewards
