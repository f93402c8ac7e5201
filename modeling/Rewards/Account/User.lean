import Rewards.UserId

/-!
# Users
-/

namespace Rewards

/-- A registered user. -/
structure User where
  id : UserId
  login : String
  passwordHash : String
deriving DecidableEq

end Rewards
