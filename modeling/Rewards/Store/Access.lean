import Rewards.Store.InPlace

/-!
# Access to a store

What the rest of the service needs of a store, whatever keeps the data. The operations run in any
monad. There are two accesses here: to a store that is part of the state, and to a database whose
connections are closed.
-/

namespace Rewards

/-- The operations of a store. -/
structure StoreAccess (m : Type → Type) where
  createUser : String → String → m (Except StoreError User)
  userByLogin : String → m (Except StoreError (Option User))
  userById : UserId → m (Except StoreError (Option User))
  createOrder : OrderNumber → UserId → Instant → m (Except StoreError OrderCreation)
  order : OrderNumber → m (Except StoreError (Option Order))
  transition : OrderNumber → OrderStatus → OrderStatus → Option Decimal →
    m (Except StoreError Bool)
  ordersOf : UserId → m (Except StoreError (List Order))
  unfinishedOrders : m (Except StoreError (List Order))
  ping : m (Except StoreError Unit)
  balance : UserId → m (Except (Failure StoreError) Balance)
  withdraw : Withdrawal → m (Except (Failure StoreError) WithdrawalReceipt)
  withdrawalsOf : UserId → m (Except StoreError (List LedgerEntry))

namespace StoreAccess

/-- Run an operation on a store that is part of the state. -/
def inPlace {m : Type → Type} [MonadStateOf Store m] {ε α : Type}
    (change : Storage.Change Store ε α) : m (Except ε α) :=
  modifyGet change.apply

/-- Access to a store that is part of the state. A clock gives the instants of its entries and a
source of identifiers those of its users. -/
def inMemory {m : Type → Type} [Monad m] [MonadStateOf Store m] (clock : m Instant)
    (newId : m UserId) : StoreAccess m where
  createUser login passwordHash := do
    let id ← newId
    inPlace (Storage.createUser id login passwordHash)
  userByLogin login := do return .ok ((← get).userByLogin? login)
  userById id := do return .ok ((← get).userById? id)
  createOrder number owner uploadedAt := inPlace (Storage.createOrder number owner uploadedAt)
  order number := do return .ok ((← get).order? number)
  transition number source target accrual := do
    let now ← clock
    inPlace (Storage.transition number source target accrual now)
  ordersOf user := do return .ok ((← get).ordersOf user)
  unfinishedOrders := do return .ok (← get).unfinishedOrders
  ping := return .ok ()
  balance user := do
    match (← get).balance? user with
    | some balance => return .ok balance
    | none => return .error .overflow
  withdraw w := do
    let now ← clock
    inPlace (Storage.withdraw w now)
  withdrawalsOf user := do return .ok ((← get).withdrawalsOf user)

/-- What an operation says when the connections are closed. -/
def poolClosed (operation : String) : StoreError :=
  .storage ("connection pool closed in " ++ operation)

/-- Access to a database whose connections are closed: what can be checked without it is checked,
and everything else fails. -/
def closedPool {m : Type → Type} [Monad m] : StoreAccess m where
  createUser _ _ := return .error (poolClosed "create_user")
  userByLogin _ := return .error (poolClosed "user_by_login")
  userById _ := return .error (poolClosed "user_by_id")
  createOrder _ _ _ := return .error (poolClosed "acquire")
  order _ := return .error (poolClosed "order")
  transition _ source target accrual :=
    match Store.checkTransition source target accrual with
    | .error e => return .error e
    | .ok () => return .error (poolClosed "begin_transition")
  ordersOf _ := return .error (poolClosed "orders_for_user")
  unfinishedOrders := return .error (poolClosed "unfinished_orders")
  ping := return .error (poolClosed "ping")
  balance _ := return .error (.refused (poolClosed "balance"))
  withdraw _ := return .error (.refused (poolClosed "begin_withdraw"))
  withdrawalsOf _ := return .error (poolClosed "withdrawals")

end StoreAccess

end Rewards
