import Rewards.Rounding

/-!
# Binary floating point

The 64-bit binary numbers that carry fractional JSON numbers, as exact dyadic fractions. Every
operation is the exact rational result rounded once by `nearest`, a half to the even significand.
-/

namespace Rewards

/-- A binary64 number other than a NaN. A finite one is `significand * 2 ^ exponent`, with a
significand of 53 bits unless the exponent is the least one. -/
inductive Binary64 where
  | finite (negative : Bool) (significand : Nat) (exponent : Int)
  | infinite (negative : Bool)
deriving DecidableEq

namespace Binary64

/-- The least exponent of a significand. -/
def minExponent : Int := -1074

/-- The greatest exponent of a significand. -/
def maxExponent : Int := 971

/-- The quotient of `num / den` by a power of two, as a numerator and a denominator. -/
def ratioAt (num den : Nat) (exponent : Int) : Nat × Nat :=
  if 0 ≤ exponent then (num, den * Nat.pow 2 exponent.toNat)
  else (num * Nat.pow 2 (-exponent).toNat, den)

/-- The exponent of the greatest power of two that is not above a positive quotient. -/
def binade (num den : Nat) : Int :=
  let guess := (num.log2 : Int) - den.log2
  let (n, d) := ratioAt num den guess
  if n < d then guess - 1 else guess

/-- The number nearest to a quotient, infinite when the quotient is too large. -/
def nearest (negative : Bool) (num den : Nat) : Binary64 :=
  if num = 0 then .finite negative 0 minExponent
  else
    let exponent := max (binade num den - 52) minExponent
    let (n, d) := ratioAt num den exponent
    let significand := Rounding.halfEven n d
    if significand = 1 <<< 53 then
      if maxExponent < exponent + 1 then .infinite negative
      else .finite negative (1 <<< 52) (exponent + 1)
    else if maxExponent < exponent then .infinite negative
    else .finite negative significand exponent

/-- The number nearest to a natural number. -/
def ofNat (n : Nat) : Binary64 := nearest false n 1

/-- The number nearest to a signed dyadic fraction. -/
def ofDyadic (coefficient : Int) (exponent : Int) : Binary64 :=
  let magnitude := coefficient.natAbs
  let (n, d) := ratioAt magnitude 1 (-exponent)
  nearest (coefficient < 0) n d

/-- The sign of a number, also of a zero. -/
def isNegative : Binary64 → Bool
  | .finite negative _ _ => negative
  | .infinite negative => negative

/-- The number is a zero of either sign. -/
def isZero : Binary64 → Bool
  | .finite _ significand _ => significand == 0
  | .infinite _ => false

/-- The number is infinite. -/
def isInfinite : Binary64 → Bool
  | .finite .. => false
  | .infinite _ => true

/-- The number with the opposite sign. -/
def neg : Binary64 → Binary64
  | .finite negative significand exponent => .finite (!negative) significand exponent
  | .infinite negative => .infinite (!negative)

/-- The sum of two magnitudes. -/
def addMagnitudes : Binary64 → Binary64 → Binary64
  | .finite _ m e, .finite _ n f =>
      let exponent := min e f
      let sum := m * Nat.pow 2 (e - exponent).toNat + n * Nat.pow 2 (f - exponent).toNat
      ofDyadic sum exponent
  | _, _ => .infinite false

/-- The product of two magnitudes. -/
def mulMagnitudes : Binary64 → Binary64 → Binary64
  | .finite _ m e, .finite _ n f => ofDyadic (m * n : Nat) (e + f)
  | _, _ => .infinite false

/-- The quotient of two magnitudes, the second of them finite and not zero. -/
def divMagnitudes : Binary64 → Binary64 → Binary64
  | .finite _ m e, .finite _ n f =>
      let (num, den) := ratioAt m n (f - e)
      nearest false num den
  | .finite .., .infinite _ => .finite false 0 minExponent
  | .infinite _, _ => .infinite false

/-- The magnitude rounded to a whole number, a half going up. -/
def roundMagnitude : Binary64 → Binary64
  | .finite _ m e =>
      if 0 ≤ e then .finite false m e
      else nearest false (Rounding.halfUp m (Nat.pow 2 (-e).toNat)) 1
  | .infinite _ => .infinite false

/-- A power by repeated squaring, every product rounded: `power` takes the bits of the exponent
from the lowest up, with the running product and the running square. -/
def power (product square : Binary64) (n : Nat) : Binary64 :=
  let product := if n % 2 = 1 then mulMagnitudes product square else product
  if h : n < 2 then product else power product (mulMagnitudes square square) (n / 2)
termination_by n
decreasing_by omega

/-- The power of ten that repeated squaring gives. -/
def powerOfTen (n : Nat) : Binary64 :=
  power (ofNat 1) (ofNat 10) n

end Binary64

end Rewards
