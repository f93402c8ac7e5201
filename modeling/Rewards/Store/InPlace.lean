import Rewards.Store.Basic

/-!
# Operations in place

An operation holds what is stored for as long as it runs. It reads and writes it part by part, and
stops where it is refused or a sum is too long. What it has written by then stays written: it is up
to the order of checks and writes that a refused operation changes nothing. An operation takes the
instant at which it happens, and the registration of a user takes the new identifier.
-/

namespace Rewards

/-- The parts of what is stored, as the operations read and write them. -/
class Storage (σ : Type) where
  idOfLogin? : σ → String → Option UserId
  order? : σ → OrderNumber → Option Order
  entriesOf : σ → UserId → List LedgerEntry
  addLogin : String → UserId → σ → σ
  addUser : User → σ → σ
  insertOrder : Order → σ → σ
  addEntry : LedgerEntry → σ → σ

instance : Storage Store where
  idOfLogin? := Store.idOfLogin?
  order? := Store.order?
  entriesOf := Store.entriesOf
  addLogin login id s := { s with logins := s.logins ++ [(login, id)] }
  addUser user s := { s with users := s.users ++ [user] }
  insertOrder := Store.insertOrder
  addEntry entry s := { s with entries := s.entries ++ [entry] }

namespace Storage

/-- An operation on what is held. -/
abbrev Change (σ ε : Type) := ExceptT ε (StateM σ)

/-- What an operation says, and what is stored after it. -/
def Change.apply {σ ε α : Type} (change : Change σ ε α) (s : σ) : Except ε α × σ :=
  (ExceptT.run change).run s

variable {σ : Type} [Storage σ]

/-- Register a user under a new identifier. -/
def createUser (id : UserId) (login passwordHash : String) : Change σ StoreError User := do
  if (idOfLogin? (← get) login).isSome then throw (.loginTaken login)
  else
    let user : User := ⟨id, login, passwordHash⟩
    modify (addLogin login id)
    modify (addUser user)
    return user

/-- Store a new order, or say that the user already has it. -/
def createOrder (number : OrderNumber) (owner : UserId) (uploadedAt : Instant) :
    Change σ StoreError OrderCreation := do
  match order? (← get) number with
  | some order =>
      if order.isOwnedBy owner then return .alreadyOwned order
      else throw (.orderOwnedByAnotherUser number)
  | none =>
      let order := Order.upload number owner uploadedAt
      modify (insertOrder order)
      return .created order

/-- Move an order to another status if it still has the expected one, and say whether it had. The
order is built anew under the number that it was found by, after the credit that it earns. -/
def transition (number : OrderNumber) (source target : OrderStatus) (accrual : Option Decimal)
    (now : Instant) : Change σ StoreError Bool := do
  Store.checkTransition source target accrual
  match order? (← get) number with
  | none => throw (.orderNotFound number)
  | some order =>
      if order.status ≠ source then return false
      else
        let updated : Order :=
          ⟨number, order.owner, target, accrual.getD order.accrual, order.uploadedAt⟩
        if target = .processed ∧ updated.accrual.isPositive then
          modify (addEntry ⟨number, updated.owner, updated.accrual, now⟩)
        modify (insertOrder updated)
        return true

/-- Withdraw from the balance of a user: the funds have to suffice, and the order has to be the
user's or a new one. -/
def withdraw (w : Withdrawal) (now : Instant) :
    Change σ (Failure StoreError) WithdrawalReceipt := do
  match Balance.ofEntries? (entriesOf (← get) w.user) with
  | none => throw .overflow
  | some balance =>
      (w.checkFunds balance.current).mapError fun e => Failure.refused (StoreError.withdrawal e)
      let anchor ← (createOrder w.order w.user now).adapt .refused
      let entry := w.toEntry now
      modify (addEntry entry)
      return ⟨entry, anchor⟩

end Storage

end Rewards
