import Rewards.Simulation.Basic

/-!
# The disturbed store

The store as the service sees it in a simulation: its calls are counted, and the disturbances of
the settings happen to them.
-/

namespace Rewards.Simulation

/-- Count a call and say what happens to it. -/
def countCall (method : StoreMethod) : StateM Simulation (Option Disturbance) := do
  let s ← get
  let nth := s.storeCalls.count method + 1
  set { s with storeCalls := method :: s.storeCalls }
  return (s.settings.faults.find? fun f => f.method = method ∧ f.nth = nth).map (·.disturbance)

/-- Make a call of the store with what happens to it. -/
def disturbed {ε α : Type} (ofStore : StoreError → ε) (method : StoreMethod)
    (call : StateM Backend (Except ε α)) : StateM Simulation (Except ε α) := do
  match ← countCall method with
  | none => onBackend call
  | some (.failure reason) => return .error (ofStore (.storage reason))
  | some (.before effect) => do
      onBackend effect
      onBackend call

/-- Make a call that can only be refused. -/
def plainly {α : Type} (method : StoreMethod) (call : StateM Backend (Except StoreError α)) :
    StateM Simulation (Except StoreError α) :=
  disturbed id method call

/-- Access to the disturbed store. -/
def store : StoreAccess (StateM Simulation) where
  createUser login passwordHash :=
    plainly .createUser (Backend.access.createUser login passwordHash)
  userByLogin login := plainly .userByLogin (Backend.access.userByLogin login)
  userById user := plainly .userById (Backend.access.userById user)
  createOrder number owner uploadedAt :=
    plainly .createOrder (Backend.access.createOrder number owner uploadedAt)
  order number := plainly .order (Backend.access.order number)
  transition number source target accrual :=
    plainly .transition (Backend.access.transition number source target accrual)
  ordersOf user := plainly .ordersOf (Backend.access.ordersOf user)
  unfinishedOrders := plainly .unfinishedOrders Backend.access.unfinishedOrders
  ping := plainly .ping Backend.access.ping
  balance user := disturbed .refused .balance (Backend.access.balance user)
  withdraw w := disturbed .refused .withdraw (Backend.access.withdraw w)
  withdrawalsOf user := plainly .withdrawalsOf (Backend.access.withdrawalsOf user)

/-- The salt of all hashes. -/
def salt : List UInt8 := (List.range 16).map UInt8.ofNat

/-- The service on the disturbed store. -/
def service (settings : Settings) : Service (StateM Simulation) where
  store := store
  clock := onBackend Backend.readClock
  passwords :=
    { hash := fun password => return Crypto.PasswordHash.hash settings.passwordCost salt password
      verify := Crypto.PasswordHash.verify }
  issuer := .ofSecret settings.secret

end Rewards.Simulation
