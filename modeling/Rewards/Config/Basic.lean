import Rewards.Url.Basic

/-!
# Configuration
-/

namespace Rewards

/-- Why a configuration cannot be used. -/
inductive ConfigError where
  | notPositive (setting : String)
  | invalidAccrualAddress (address reason : String)
deriving DecidableEq

/-- The wording of a fault. -/
def ConfigError.message : ConfigError → String
  | .notPositive setting => setting ++ " must be greater than zero"
  | .invalidAccrualAddress address reason =>
      s!"invalid accrual system address {address}: {reason}"

/-- The configuration of the service. Without a database the store is kept in memory. -/
structure Config where
  runAddress : String
  logLevel : String
  jwtSecretKey : String
  databaseUri : Option String
  accrualSystemAddress : String
  workers : Nat
  jobsDelaySeconds : Nat
  jobTimeoutSeconds : Nat
  queueCapacity : Nat
  shutdownTimeoutSeconds : Nat
deriving DecidableEq

namespace Config

/-- The address of the accrual system is one of the web. -/
def checkAccrualAddress (address : String) : Except ConfigError Unit :=
  match Url.read address with
  | .error e => .error (.invalidAccrualAddress address e.message)
  | .ok url =>
      if url.scheme = "http" ∨ url.scheme = "https" then .ok ()
      else .error (.invalidAccrualAddress address ("unsupported scheme " ++ url.scheme))

/-- The configuration can be used. -/
def check (c : Config) : Except ConfigError Unit :=
  if c.workers = 0 then .error (.notPositive "workers")
  else if c.queueCapacity = 0 then .error (.notPositive "queue-capacity")
  else if c.jobTimeoutSeconds = 0 then .error (.notPositive "job-timeout-secs")
  else checkAccrualAddress c.accrualSystemAddress

end Config

end Rewards
