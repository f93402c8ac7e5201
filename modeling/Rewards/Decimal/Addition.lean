import Rewards.Decimal.Basic
import Rewards.Rounding

/-!
# Adding amounts

A sum has the larger scale of its terms. When its coefficient has more than 96 bits, fractional
digits are given up until it fits, and the exact sum is rounded once, a half going to the even
neighbour. A sum that does not fit even as a whole number has no value: `add?` is `none` then.
-/

namespace Rewards.Decimal

/-- Give up fractional digits of the magnitude `n` at the given scale, `dropped` of them at first
and one more while the rounded quotient is too long. -/
def fitMagnitude (n scale dropped : Nat) : Option (Nat × Nat) :=
  if scale < dropped then none
  else
    let q := Rounding.halfEven n (Nat.pow 10 dropped)
    if q < 1 <<< 96 then some (q, scale - dropped) else fitMagnitude n scale (dropped + 1)
termination_by scale + 1 - dropped

/-- A sum with this exact coefficient and scale, rounded to 96 bits if it has to be. -/
def round? (coefficient : Int) (scale : Nat) : Option Decimal :=
  match fitMagnitude coefficient.natAbs scale 0 with
  | none => none
  | some (magnitude, scale) => of? (if coefficient < 0 then -magnitude else magnitude) scale

/-- The sum of two amounts. A zero term gives back the other one as it was written. -/
def add? (a b : Decimal) : Option Decimal :=
  if a.coefficient = 0 then some b
  else if b.coefficient = 0 then some a
  else
    let scale := max a.scale b.scale
    round? (a.coefficientAt scale + b.coefficientAt scale) scale

end Rewards.Decimal
