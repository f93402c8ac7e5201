/-!
# Failures

What adds numbers of a fixed width can fail in two ways: it is refused, or it is abandoned because a
sum does not fit.
-/

namespace Rewards

/-- How an operation that adds numbers fails: it is refused, or a sum is too long. -/
inductive Failure (ε : Type) where
  | refused (e : ε)
  | overflow
deriving DecidableEq

/-- Change the refusal of a failure. -/
def Failure.map {ε δ : Type} (f : ε → δ) : Failure ε → Failure δ
  | .refused e => .refused (f e)
  | .overflow => .overflow

end Rewards
