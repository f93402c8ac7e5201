import Rewards.Text.Natural

/-!
# Decimal amounts

An amount of points is a signed coefficient of at most 96 bits over a power of ten with exponent
at most 28. Amounts keep the scale they were written with, so `1.10` and `1.1` are different
values that compare as equal.
-/

namespace Rewards

/-- A decimal number `coefficient / 10 ^ scale`. -/
structure Decimal where
  coefficient : Int
  scale : Nat
  coefficient_lt : coefficient.natAbs < 1 <<< 96
  scale_le : scale ≤ 28
deriving DecidableEq

namespace Decimal

/-- The first coefficient that no longer fits. -/
def bound : Nat := 1 <<< 96

/-- The largest number of fractional digits. -/
def maxScale : Nat := 28

/-- The decimal with this coefficient and scale, if both are in range. -/
def of? (coefficient : Int) (scale : Nat) : Option Decimal :=
  if h : coefficient.natAbs < 1 <<< 96 ∧ scale ≤ 28 then
    some ⟨coefficient, scale, h.1, h.2⟩
  else none

/-- The amount of nothing, with no fractional digits. -/
def zero : Decimal := ⟨0, 0, by decide, by decide⟩

instance : Inhabited Decimal := ⟨zero⟩

/-- The amount with the opposite sign. -/
def neg (d : Decimal) : Decimal :=
  ⟨-d.coefficient, d.scale, by simpa using d.coefficient_lt, d.scale_le⟩

/-- The amount without its sign. -/
def abs (d : Decimal) : Decimal :=
  ⟨d.coefficient.natAbs, d.scale, Int.natAbs_natCast _ ▸ d.coefficient_lt, d.scale_le⟩

/-- The coefficient of the amount at a scale that is not smaller than its own. -/
def coefficientAt (d : Decimal) (scale : Nat) : Int :=
  d.coefficient * Nat.pow 10 (scale - d.scale)

/-- Order by value: both coefficients are brought to the larger scale. -/
def le (a b : Decimal) : Bool :=
  let scale := max a.scale b.scale
  a.coefficientAt scale ≤ b.coefficientAt scale

/-- Strict order by value. -/
def lt (a b : Decimal) : Bool :=
  !b.le a

/-- The amount is less than nothing. -/
def isNegative (d : Decimal) : Bool := d.coefficient < 0

/-- The amount is more than nothing. -/
def isPositive (d : Decimal) : Bool := 0 < d.coefficient

/-- Drop trailing zeros of a fraction, one digit for each unit of scale. -/
def stripZeros : Nat → Int → Int × Nat
  | 0, c => (c, 0)
  | s + 1, c => if c % 10 = 0 then stripZeros s (c / 10) else (c, s + 1)

/-- Stripping zeros never makes the coefficient longer. -/
theorem nat_abs_strip_zeros_le (s : Nat) (c : Int) : (stripZeros s c).1.natAbs ≤ c.natAbs := by
  induction s generalizing c with
  | zero => simp [stripZeros]
  | succ s ih =>
      simp only [stripZeros]
      split
      · exact Nat.le_trans (ih _) (by omega)
      · exact Nat.le_refl _

/-- Stripping zeros never makes the scale larger. -/
theorem strip_zeros_scale_le (s : Nat) (c : Int) : (stripZeros s c).2 ≤ s := by
  induction s generalizing c with
  | zero => simp [stripZeros]
  | succ s ih =>
      simp only [stripZeros]
      split
      · exact Nat.le_succ_of_le (ih _)
      · exact Nat.le_refl _

/-- The same value with the smallest scale. -/
def normalize (d : Decimal) : Decimal :=
  ⟨(stripZeros d.scale d.coefficient).1, (stripZeros d.scale d.coefficient).2,
    Nat.lt_of_le_of_lt (nat_abs_strip_zeros_le _ _) d.coefficient_lt,
    Nat.le_trans (strip_zeros_scale_le _ _) d.scale_le⟩

/-- Points are paid in hundredths. -/
def currencyScale : Nat := 2

/-- The value is a whole number of hundredths. -/
def fitsCurrencyScale (d : Decimal) : Bool :=
  d.normalize.scale ≤ currencyScale

/-- The characters of an amount: a sign if it is negative, the whole part, and one fractional
digit for each unit of scale. -/
def chars (d : Decimal) : List Char :=
  let digits := Text.paddedDigits (d.scale + 1) d.coefficient.natAbs
  let whole := digits.take (digits.length - d.scale)
  let fraction := digits.drop (digits.length - d.scale)
  (if d.coefficient < 0 then ['-'] else []) ++ whole ++
    (if d.scale = 0 then [] else '.' :: fraction)

/-- The text of an amount, with as many fractional digits as its scale. -/
def toText (d : Decimal) : String :=
  String.ofList d.chars

instance : ToString Decimal := ⟨toText⟩

end Decimal

end Rewards
