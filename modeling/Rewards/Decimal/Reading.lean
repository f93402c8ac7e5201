import Rewards.Decimal.Basic
import Rewards.Rounding
import Rewards.Text.Natural

/-!
# Reading amounts

An amount is written as an optional sign and digits with at most one point; an underscore may
stand anywhere after the first digit. Fractional digits that do not fit are rounded away by the
first of them. A text that cannot be read so and has an exponent is read as a base and a power of
ten. The main function is `read`.
-/

namespace Rewards.Decimal

/-- Why a text is not an amount. -/
inductive ReadError where
  | empty
  | noDigits
  | unknownCharacter
  | twoPoints
  | leadingSeparator
  | tooManyDigits
  | roundingOverflow
  | badExponent
  | scaleTooLarge (scale : Nat)
  | tooLarge
deriving DecidableEq

/-- The wording of a reading failure. -/
def ReadError.message : ReadError → String
  | .empty => "Invalid decimal: empty"
  | .noDigits => "Invalid decimal: no digits found"
  | .unknownCharacter => "Invalid decimal: unknown character"
  | .twoPoints => "Invalid decimal: two decimal points"
  | .leadingSeparator => "Invalid decimal: must start lead with a number"
  | .tooManyDigits => "Invalid decimal: overflow from too many digits"
  | .roundingOverflow => "Invalid decimal: overflow from mantissa after rounding"
  | .badExponent => "Failed to parse"
  | .scaleTooLarge scale =>
      s!"Scale exceeds the maximum precision allowed: {scale} > 28"
  | .tooLarge => "Number exceeds maximum value that can be represented."

/-- The value of a decimal digit. -/
def digitValue (c : Char) : Nat := c.toNat - '0'.toNat

/-- What may follow the digit that decides the rounding: digits and separators. -/
def checkDropped : List Char → Except ReadError Unit
  | [] => .ok ()
  | c :: cs =>
      if c.isDigit || c = '_' then checkDropped cs
      else if c = '.' then .error .twoPoints
      else .error .unknownCharacter

/-- Round a full magnitude by the first digit that it has no room for. -/
def roundMagnitude (magnitude scale digit : Nat) : Except ReadError (Nat × Nat) :=
  if digit < 5 then .ok (magnitude, scale)
  else if magnitude + 1 < bound then .ok (magnitude + 1, scale)
  else if scale = 0 then .error .roundingOverflow
  else .ok ((magnitude + 5) / 10, scale - 1)

/-- Read the digits after the sign. `point` says that the point has been seen, `started` that a
digit has; `magnitude` and `scale` are the number read so far. -/
def readMagnitude (point started : Bool) (magnitude scale : Nat) :
    List Char → Except ReadError (Nat × Nat)
  | [] => if started then .ok (magnitude, scale) else .error .noDigits
  | c :: cs =>
      if c.isDigit then
        let next := magnitude * 10 + digitValue c
        if next < bound && !(point && scale == maxScale) then
          readMagnitude point true next (if point then scale + 1 else 0) cs
        else if point then do
          checkDropped cs
          roundMagnitude magnitude scale (digitValue c)
        else .error .tooManyDigits
      else if c = '.' then
        if point then .error .twoPoints else readMagnitude true started magnitude scale cs
      else if c = '_' then
        if started then readMagnitude point started magnitude scale cs
        else .error .leadingSeparator
      else .error .unknownCharacter

/-- The decimal of a sign and a magnitude that fits. -/
def ofMagnitude (negative : Bool) (magnitude scale : Nat) : Except ReadError Decimal :=
  match of? (if negative then -magnitude else magnitude) scale with
  | some d => .ok d
  | none => .error .tooLarge

/-- Read an amount without an exponent. -/
def readPlain : List Char → Except ReadError Decimal
  | [] => .error .empty
  | '-' :: cs => do
      let (magnitude, scale) ← readMagnitude false false 0 0 cs
      ofMagnitude true magnitude scale
  | '+' :: cs => do
      let (magnitude, scale) ← readMagnitude false false 0 0 cs
      ofMagnitude false magnitude scale
  | cs => do
      let (magnitude, scale) ← readMagnitude false false 0 0 cs
      ofMagnitude false magnitude scale

/-- Move the point of the base to the left. Digits that pass the largest scale are rounded away. -/
def shiftLeft (base : Decimal) (places : Nat) : Except ReadError Decimal :=
  let magnitude := base.coefficient.natAbs
  let scale := base.scale + places
  if scale ≤ maxScale then ofMagnitude base.isNegative magnitude scale
  else
    let unit := Nat.pow 10 (scale - maxScale)
    ofMagnitude base.isNegative (Rounding.halfUp magnitude unit) maxScale

/-- Move the point of the base to the right, adding zeros when its fraction is used up. -/
def shiftRight (base : Decimal) (places : Nat) : Except ReadError Decimal :=
  let magnitude := base.coefficient.natAbs
  if places ≤ base.scale then ofMagnitude base.isNegative magnitude (base.scale - places)
  else ofMagnitude base.isNegative (magnitude * Nat.pow 10 (places - base.scale)) 0

/-- The limit of an exponent: it is a 32-bit number. -/
def exponentLimit : Nat := 1 <<< 32

/-- The mark of an exponent. -/
def isExponentMark (c : Char) : Bool := c = 'e' || c = 'E'

/-- Read a base and an exponent around the first exponent mark. -/
def readScientific (cs : List Char) : Except ReadError Decimal := do
  let base ← readPlain (cs.takeWhile (!isExponentMark ·))
  let exponent := (cs.dropWhile (!isExponentMark ·)).drop 1
  let (left, digits) := match exponent with
    | '-' :: rest => (true, rest)
    | _ => (false, exponent)
  match Text.natural? exponentLimit digits with
  | none => .error .badExponent
  | some places =>
      if maxScale < places then .error (.scaleTooLarge places)
      else if left then shiftLeft base places else shiftRight base places

/-- Read an amount, with an exponent if it cannot be read without one. -/
def readChars (cs : List Char) : Except ReadError Decimal :=
  match readPlain cs with
  | .ok d => .ok d
  | .error e => if cs.any isExponentMark then readScientific cs else .error e

/-- Read the text of an amount. -/
def read (s : String) : Except ReadError Decimal :=
  readChars s.toList

end Rewards.Decimal
