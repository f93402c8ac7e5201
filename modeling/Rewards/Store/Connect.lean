import Rewards.Store.Error
import Rewards.Url.Basic

/-!
# Connecting to a database

A connection string is an address. One that is not is refused before anything is connected to.
-/

namespace Rewards

/-- The connection string is an address. -/
def checkDatabaseUri (uri : String) : Except StoreError Url :=
  match Url.read uri with
  | .ok url => .ok url
  | .error e =>
      .error (.storage ("sqlx error in connect: error with configuration: " ++ e.message))

end Rewards
