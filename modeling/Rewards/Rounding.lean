/-!
# Rounding quotients

The nearest natural number to a quotient, with the two rules for a half that amounts and binary
fractions use.
-/

namespace Rewards.Rounding

/-- The quotient rounded to the nearest natural number, a half to the even one. -/
def halfEven (n d : Nat) : Nat :=
  let q := n / d
  let r := n % d
  if d < 2 * r || (2 * r == d && q % 2 == 1) then q + 1 else q

/-- The quotient rounded to the nearest natural number, a half to the larger one. -/
def halfUp (n d : Nat) : Nat :=
  (2 * n + d) / (2 * d)

end Rewards.Rounding
