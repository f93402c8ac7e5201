import Rewards.DomainError
import Rewards.Failure
import Rewards.Json.Reader
import Rewards.Json.Value

/-!
# Order numbers

An order number is a non-empty string of decimal digits whose Luhn sum is divisible by ten. It is
kept as it was written, so leading zeros distinguish numbers. The sum has 32 bits, and a string for
which that is too few is neither accepted nor refused.
-/

namespace Rewards

namespace Luhn

/-- The sum of two numbers of 32 bits, if it has 32 bits. -/
def add? (a b : UInt32) : Option UInt32 :=
  if a.toNat + b.toNat < 1 <<< 32 then some (a + b) else none

/-- What a digit adds at an index from the right: at every second one, the sum of the digits of its
double. -/
def share (index : Nat) (digit : UInt32) : UInt32 :=
  if index % 2 = 1 then
    if 9 < digit * 2 then digit * 2 - 9 else digit * 2
  else digit

/-- Why a sum over bytes has no result. -/
inductive Stop where
  | noDigit
  | overflow
deriving DecidableEq

/-- Add the digits of bytes to a sum, from the given index on. -/
def accumulate (index : Nat) (sum : UInt32) : List UInt8 → Except Stop UInt32
  | [] => .ok sum
  | b :: bytes =>
      if Json.isDigit b then
        match add? sum (share index (b - 48).toUInt32) with
        | some next => accumulate (index + 1) next bytes
        | none => .error .overflow
      else .error .noDigit

/-- The verdict on a text by a sum over its bytes from the right. There is none if the sum
overflows. -/
def check? (s : String) : Option Bool :=
  if s.toList.isEmpty then some false
  else
    match accumulate 0 0 (Text.bytes s.toList).reverse with
    | .ok sum => some (sum % 10 == 0)
    | .error .noDigit => some false
    | .error .overflow => none

end Luhn

/-- The number of an order. -/
structure OrderNumber where
  text : String
  isLuhn : Luhn.check? text = some true
deriving DecidableEq

namespace OrderNumber

/-- Why a text is not an order number. -/
inductive Fault where
  | empty
  | notDigits
  | checksum
deriving DecidableEq

/-- The wording of a fault. -/
def Fault.reason : Fault → String
  | .empty => "order number is empty"
  | .notDigits => "order number must contain only decimal digits"
  | .checksum => "order number fails the Luhn check"

/-- A fault as a refusal of the domain. -/
def Fault.toDomainError (f : Fault) : DomainError := .validation f.reason

/-- Read an order number. -/
def read (s : String) : Except (Failure Fault) OrderNumber :=
  if s.toList.isEmpty then .error (.refused .empty)
  else if !(Text.bytes s.toList).all Json.isDigit then .error (.refused .notDigits)
  else
    match h : Luhn.check? s with
    | some true => .ok ⟨s, h⟩
    | some false => .error (.refused .checksum)
    | none => .error .overflow

/-- Read an order number, with the refusal of the domain. -/
def parse (s : String) : Except (Failure DomainError) OrderNumber :=
  (read s).mapError (.map Fault.toDomainError)

/-- The order of numbers by their characters. -/
def le (a b : OrderNumber) : Bool := !(b.text < a.text)

/-- An order number as a JSON value. -/
def toJson (n : OrderNumber) : Json.Value := .text n.text

/-- Read an order number from a JSON document. -/
def reader : Json.Reader OrderNumber := do
  let s ← Json.Reader.string "a string"
  match parse s with
  | .ok number => pure number
  | .error (.refused e) => throw (.refused e.message)
  | .error .overflow => throw .overflow

end OrderNumber

end Rewards
