import Rewards.Account.User
import Rewards.Store.Error

/-!
# The store

Users, orders and ledger entries, and what can be read of them. The operations that change the store
are in `Rewards.Store.InPlace`.
-/

namespace Rewards

/-- What an upload of an order number did: it stored a new order, or the user already had it. -/
inductive OrderCreation where
  | created (order : Order)
  | alreadyOwned (order : Order)
deriving DecidableEq

/-- The stored order. -/
def OrderCreation.order : OrderCreation → Order
  | .created order => order
  | .alreadyOwned order => order

/-- A withdrawal that went through: the ledger entry, and the order it counts against. -/
structure WithdrawalReceipt where
  entry : LedgerEntry
  anchor : OrderCreation
deriving DecidableEq

/-- The contents of the store. Orders stand in the order of their creation and have different
numbers; ledger entries are only ever appended. -/
structure Store where
  users : List User
  logins : List (String × UserId)
  orders : List Order
  entries : List LedgerEntry
deriving DecidableEq

namespace Store

/-- The store without any content. -/
def empty : Store := ⟨[], [], [], []⟩

/-! ## Users -/

/-- The user with an identifier. -/
def userById? (s : Store) (id : UserId) : Option User :=
  s.users.find? (·.id == id)

/-- The identifier that a login belongs to. -/
def idOfLogin? (s : Store) (login : String) : Option UserId :=
  (s.logins.find? (·.1 == login)).map (·.2)

/-- The user with a login. -/
def userByLogin? (s : Store) (login : String) : Option User := do
  s.userById? (← s.idOfLogin? login)

/-! ## Orders -/

/-- The order with a number. -/
def order? (s : Store) (number : OrderNumber) : Option Order :=
  s.orders.find? (·.number == number)

/-- Replace the order with the same number. -/
def putOrder (s : Store) (order : Order) : Store :=
  { s with orders := s.orders.map fun o => if o.number == order.number then order else o }

/-- Put an order under its number, in place of the one that is there or behind all others. -/
def insertOrder (order : Order) (s : Store) : Store :=
  if (s.order? order.number).isSome then s.putOrder order
  else { s with orders := s.orders ++ [order] }

/-- A change of status has to be a step of the life cycle, and only a processed order can be given
an accrual. -/
def checkTransition (source target : OrderStatus) (accrual : Option Decimal) :
    Except StoreError Unit :=
  if !source.canBecome target then
    .error (.domain (.invariant
      s!"illegal order transition {source.toText} -> {target.toText}"))
  else if accrual.isSome && target != .processed then
    .error (.domain (.invariant
      s!"accrual can only be set when entering {OrderStatus.processed.toText}"))
  else .ok ()

/-- An earlier upload comes first, and of two at the same instant the smaller number. -/
def uploadedBefore (a b : Order) : Bool :=
  if a.uploadedAt = b.uploadedAt then a.number.le b.number else a.uploadedAt.le b.uploadedAt

/-- The orders of a user, oldest first. -/
def ordersOf (s : Store) (user : UserId) : List Order :=
  (s.orders.filter (·.isOwnedBy user)).mergeSort uploadedBefore

/-- The orders that are new or being processed, oldest first. -/
def unfinishedOrders (s : Store) : List Order :=
  (s.orders.filter fun o => !o.status.isTerminal).mergeSort
    fun a b => a.uploadedAt.le b.uploadedAt

/-! ## The ledger -/

/-- The ledger entries of a user, oldest first. -/
def entriesOf (s : Store) (user : UserId) : List LedgerEntry :=
  s.entries.filter (·.user == user)

/-- The balance of a user. There is none if a sum on the way does not fit a decimal. -/
def balance? (s : Store) (user : UserId) : Option Balance :=
  Balance.ofEntries? (s.entriesOf user)

/-- The withdrawals of a user, newest first; of two at the same instant the later one first. -/
def withdrawalsOf (s : Store) (user : UserId) : List LedgerEntry :=
  ((s.entriesOf user).filter (·.isWithdrawal)).reverse.mergeSort
    fun a b => b.processedAt.le a.processedAt

end Store

end Rewards
