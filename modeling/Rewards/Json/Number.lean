import Rewards.Binary64.Shortest

/-!
# JSON numbers

A number is a natural number of 64 bits, a negative integer of 64 bits, or a binary64 number. A
numeral is read into the first of these that holds it: `Numeral.toNumber` gives an integer if it
has no fraction and no exponent and fits, and otherwise takes as many digits as 64 bits hold and
multiplies or divides them once by a power of ten.
-/

namespace Rewards.Json

/-- A JSON number. A negative integer is kept by its magnitude. -/
inductive Number where
  | natural (n : Nat)
  | negative (magnitude : Nat)
  | float (x : Binary64)
deriving DecidableEq

/-- The characters of a number. -/
def Number.chars : Number → List Char
  | .natural n => Nat.toDigits 10 n
  | .negative n => '-' :: Nat.toDigits 10 n
  | .float x => x.chars

/-- The text of a number. -/
def Number.toText (n : Number) : String :=
  String.ofList n.chars

/-- A number as it is written. Digits are kept by value. The fraction is empty if there is no
point. -/
structure Numeral where
  negative : Bool
  whole : List Nat
  fraction : List Nat
  exponent : Option (Bool × List Nat)

namespace Numeral

/-- The first significand that no longer fits. -/
def significandLimit : Nat := 1 <<< 64

/-- Append digits to a significand until the next one does not fit; the digits left over follow. -/
def takeDigits (significand : Nat) : List Nat → Nat × List Nat
  | [] => (significand, [])
  | d :: ds =>
      if significand * 10 + d < significandLimit then takeDigits (significand * 10 + d) ds
      else (significand, d :: ds)

/-- The value of decimal digits. -/
def digitsValue (ds : List Nat) : Nat :=
  ds.foldl (fun n d => n * 10 + d) 0

/-- A power of ten as a binary64 number. -/
def tenTo (n : Nat) : Binary64 := .nearest false (Nat.pow 10 n) 1

/-- The largest power of ten that is a binary64 number. -/
def maxPower : Nat := 308

/-- Multiply or divide by a power of ten, in steps of the largest one for small quotients. There is
no value if the product is infinite. -/
def scaleByTen (x : Binary64) (exponent : Int) : Option Binary64 :=
  if 0 ≤ exponent then
    if exponent ≤ maxPower then
      let product := Binary64.mulMagnitudes x (tenTo exponent.toNat)
      if product.isInfinite then none else some product
    else if x.isZero then some x else none
  else if -exponent ≤ maxPower then some (Binary64.divMagnitudes x (tenTo (-exponent).toNat))
  else if x.isZero then some x
  else scaleByTen (Binary64.divMagnitudes x (tenTo maxPower)) (exponent + maxPower)
termination_by (-exponent).toNat
decreasing_by simp only [maxPower] at *; omega

/-- The bound of an exponent: it is a signed 32-bit number. -/
def exponentLimit : Int := (1 <<< 31 : Nat)

/-- A binary64 number with a sign. -/
def signed (negative : Bool) (x : Binary64) : Binary64 :=
  if negative then x.neg else x

/-- The binary64 number of a significand, a power of ten and the written exponent. -/
def toBinary64? (n : Numeral) (significand : Nat) (power : Int) : Option Binary64 :=
  match n.exponent with
  | none => (scaleByTen (.ofNat significand) power).map (signed n.negative)
  | some (down, digits) =>
      let written : Int := digitsValue digits
      if exponentLimit ≤ written then
        if significand ≠ 0 ∧ down = false then none
        else some (signed n.negative (.ofNat 0))
      else
        let power := power + (if down then -written else written)
        let power := min (max power (-exponentLimit)) (exponentLimit - 1)
        (scaleByTen (.ofNat significand) power).map (signed n.negative)

/-- The number that a numeral stands for, if it is not too large. -/
def toNumber (n : Numeral) : Option Number :=
  let (significand, rest) := takeDigits 0 n.whole
  match n.fraction, n.exponent, rest with
  | [], none, [] =>
      if !n.negative then some (.natural significand)
      else if significand = 0 ∨ 1 <<< 63 < significand then
        some (.float (Binary64.ofNat significand).neg)
      else some (.negative significand)
  | fraction, _, rest =>
      let (significand, unused) := takeDigits significand fraction
      let power : Int := rest.length - (fraction.length - unused.length : Nat)
      (n.toBinary64? significand power).map .float

end Numeral

end Rewards.Json
