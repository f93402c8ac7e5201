import Rewards.Decimal.Basic
import Rewards.Binary64.Basic

/-!
# Amounts as binary numbers

The binary64 number that stands for an amount in a JSON document: the whole part and the fraction
are converted apart, added, and cleaned of the error of the addition at the scale of the amount.
-/

namespace Rewards.Decimal

/-- The binary magnitude of a fractional amount. -/
def binaryMagnitude (magnitude scale : Nat) : Binary64 :=
  let unit := Nat.pow 10 scale
  let whole := Binary64.ofNat (magnitude / unit)
  let fraction :=
    Binary64.divMagnitudes (Binary64.ofNat (magnitude % unit)) (Binary64.ofNat unit)
  if fraction.isZero then whole
  else
    let sum := Binary64.addMagnitudes whole fraction
    let power := Binary64.powerOfTen scale
    Binary64.divMagnitudes (Binary64.roundMagnitude (Binary64.mulMagnitudes sum power)) power

/-- The binary number of an amount. -/
def toBinary64 (d : Decimal) : Binary64 :=
  let magnitude :=
    if d.scale = 0 then Binary64.ofNat d.coefficient.natAbs
    else binaryMagnitude d.coefficient.natAbs d.scale
  if d.coefficient < 0 then magnitude.neg else magnitude

end Rewards.Decimal
