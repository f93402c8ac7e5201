/-!
# Refusals of the domain

The deterministic failures of the rules on orders, amounts and identifiers, each with its reason.
-/

namespace Rewards

/-- A refusal by a rule of the domain. -/
inductive DomainError where
  | validation (reason : String)
  | invariant (reason : String)
  | invalidId (reason : String)
  | conflict (reason : String)
deriving DecidableEq

/-- The wording of a refusal. -/
def DomainError.message : DomainError → String
  | .validation reason => "validation failed: " ++ reason
  | .invariant reason => "invariant violated: " ++ reason
  | .invalidId reason => "invalid identifier: " ++ reason
  | .conflict reason => "conflict: " ++ reason

end Rewards
