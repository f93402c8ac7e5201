import Rewards.Simulation.Backend
import Rewards.Text.Utf8

/-!
# Names of users

Users of a simulation go by their logins. A name that nobody has registered stands for an
identifier that the store does not know.
-/

namespace Rewards.Simulation

/-- The identifier that an unregistered name is counted from. -/
def firstStranger : Nat := 0x019b0000000070008000000000000000

/-- A number for a name. -/
def nameCode (name : String) : Nat :=
  (Text.utf8 name).foldl (fun n b => (n * 257 + b.toNat) % (1 <<< 60)) 1

/-- The identifier of an unregistered name. -/
def strangerId (name : String) : UserId := ⟨.ofNat (firstStranger + nameCode name)⟩

namespace Backend

/-- The identifier that a name stands for. -/
def idOf (b : Backend) (name : String) : UserId :=
  (b.store.idOfLogin? name).getD (strangerId name)

/-- The name of an identifier: a login, or one of the names that are known to be unregistered. -/
def nameOf (b : Backend) (strangers : List String) (id : UserId) : String :=
  match b.store.userById? id with
  | some user => user.login
  | none => (strangers.find? fun name => strangerId name = id).getD id.toText

/-- The instant is less than an hour from what the clock shows. -/
def isRecent (b : Backend) (t : Instant) : Bool := (t.second - b.clock.second).natAbs < 3600

end Backend

end Rewards.Simulation
