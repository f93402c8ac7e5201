import Rewards.Decimal.Binary
import Rewards.Decimal.Reading
import Rewards.DomainError
import Rewards.Json.Reader
import Rewards.Json.Value

/-!
# Amounts in JSON documents

An amount that a peer sends is a JSON number and is taken by its text. An amount that is sent is an
integer when it is whole and not too long, and a binary64 number otherwise. Where the scale matters
an amount is a string.
-/

namespace Rewards.Decimal

/-- The amount of a JSON number, by its text. -/
def ofNumber (n : Json.Number) : Except DomainError Decimal :=
  match readChars n.chars with
  | .ok d => .ok d
  | .error e => .error (.validation ("invalid amount " ++ n.toText ++ ": " ++ e.message))

/-- A whole amount as an integer of 64 bits, if it fits. -/
def integer? (coefficient : Int) : Option Json.Number :=
  if 0 ≤ coefficient then
    if coefficient < (1 <<< 63 : Nat) then some (.natural coefficient.toNat) else none
  else if -(1 <<< 63 : Nat) ≤ coefficient then some (.negative coefficient.natAbs)
  else none

/-- An amount as a JSON number. -/
def toNumber (d : Decimal) : Json.Number :=
  let d := d.normalize
  match (if d.scale = 0 then integer? d.coefficient else none) with
  | some n => n
  | none => .float d.toBinary64

/-- An amount as a JSON value. -/
def toJson (d : Decimal) : Json.Value := .number d.toNumber

/-- What stands in a document where an amount is expected. -/
def expectation : String := "a Decimal type representing a fixed-point number"

/-- The characters of a JSON number that an amount is read from. -/
def numberChars : Json.Number → List Char
  | .float x => x.positionalChars
  | n => n.chars

/-- The amount with these characters, in a JSON document. -/
def written (cs : List Char) : Json.Reader Decimal :=
  match readChars cs with
  | .ok d => pure d
  | .error _ => Json.Reader.malformed

/-- Read an amount from a JSON document: a string or a number. -/
def reader : Json.Reader Decimal := do
  if (← Json.Reader.peek) == some (Json.byte '"') then do
    Json.Reader.skip
    written (← Json.Reader.stringTail).toList
  else do
    written (numberChars (← Json.Reader.onlyNumber expectation))

end Rewards.Decimal
