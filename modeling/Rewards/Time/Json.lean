import Rewards.Json.Reader
import Rewards.Json.Value
import Rewards.Time.Reading

/-!
# Instants in JSON documents
-/

namespace Rewards.Instant

/-- Read an instant from a JSON document. -/
def reader : Json.Reader Instant := do
  let s ← Json.Reader.string "an RFC 3339 formatted date and time string"
  match read s with
  | some t => pure t
  | none => Json.Reader.malformed

/-- An instant as a JSON value, with the letter of universal time. -/
def toJson (t : Instant) : Json.Value := .text t.toZuluText

end Rewards.Instant
