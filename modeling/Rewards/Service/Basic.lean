import Rewards.Service.Error
import Rewards.Session.Token
import Rewards.Store.Access
import Rewards.Text.Blank

/-!
# The service

What users can do: register, log in, upload order numbers, and look at and withdraw their points.
An operation that stores a new order also says which order is to be processed; the caller schedules
it after the operation has gone through.
-/

namespace Rewards

/-- How passwords are hashed and checked. -/
structure PasswordScheme (m : Type → Type) where
  hash : String → m (Except Crypto.PasswordHashError String)
  verify : String → String → Except Crypto.PasswordHashError Bool

/-- What the service is made of. -/
structure Service (m : Type → Type) where
  store : StoreAccess m
  clock : m Instant
  passwords : PasswordScheme m
  issuer : Session.Issuer

/-- An operation of the service, which may fail. -/
abbrev Operation (m : Type → Type) := ExceptT (Failure ServiceError) m

/-- What an upload of an order number came to. -/
inductive Submission where
  | accepted
  | alreadySubmitted
deriving DecidableEq

/-- The result of an operation, and the order whose processing has to be scheduled. -/
structure Scheduling (α : Type) where
  result : α
  job : Option Order

namespace Service

variable {m : Type → Type} [Monad m]

/-- Fail with a refusal. -/
def refuse {α : Type} (e : ServiceError) : Operation m α := throw (.refused e)

/-- Use the answer of the store. -/
def ask {α : Type} (answer : m (Except StoreError α)) : Operation m α := do
  match ← answer with
  | .ok result => pure result
  | .error e => refuse (.ofStore e)

/-- Use the answer of the store to an operation that adds amounts. -/
def askAmount {α : Type} (answer : m (Except (Failure StoreError) α)) : Operation m α := do
  match ← answer with
  | .ok result => pure result
  | .error e => throw (e.map .ofStore)

/-- Use the answer of the password scheme. -/
def askPassword {α : Type} : Except Crypto.PasswordHashError α → Operation m α
  | .ok result => pure result
  | .error e => refuse (.ofHashing e)

/-- Refuse a login and a password that break a rule. -/
def checkCredentials (c : Credentials) : Operation m Unit :=
  if c.faults.isEmpty then pure () else refuse (.invalidFields c.faults)

/-- A session of a user from now on. -/
def openSession (s : Service m) (user : UserId) : Operation m String := do
  match s.issuer.issue? user (← s.clock) with
  | some token => pure token
  | none => throw .overflow

/-- Register a user and open a session. -/
def register (s : Service m) (c : Credentials) : Operation m String := do
  checkCredentials c
  let hash ← askPassword (← s.passwords.hash c.password)
  let user ← ask (s.store.createUser c.login hash)
  s.openSession user.id

/-- Open a session of a registered user. -/
def login (s : Service m) (c : Credentials) : Operation m String := do
  checkCredentials c
  match ← ask (s.store.userByLogin c.login) with
  | none => refuse .badCredentials
  | some user =>
      if ← askPassword (s.passwords.verify c.password user.passwordHash) then
        s.openSession user.id
      else refuse .badCredentials

/-- Read an order number that a user sends, with blanks around it. -/
def readNumber (text : String) : Operation m OrderNumber :=
  match OrderNumber.parse (Text.trim text) with
  | .ok number => pure number
  | .error e => throw (e.map .invalidOrderNumber)

/-- Upload an order number. An order that is not finished is to be processed, also if it has been
uploaded before. -/
def submitOrder (s : Service m) (user : UserId) (text : String) :
    Operation m (Scheduling Submission) := do
  let number ← readNumber text
  match ← ask (s.store.createOrder number user (← s.clock)) with
  | .created order => return ⟨.accepted, some order⟩
  | .alreadyOwned order =>
      return ⟨.alreadySubmitted, if order.status.isTerminal then none else some order⟩

/-- The orders of a user, oldest first. -/
def ordersOf (s : Service m) (user : UserId) : Operation m (List Order) :=
  ask (s.store.ordersOf user)

/-- The balance of a user. -/
def balanceOf (s : Service m) (user : UserId) : Operation m Balance :=
  askAmount (s.store.balance user)

/-- Withdraw points against an order number. A number that is new becomes an order of the user,
which is to be processed. -/
def withdraw (s : Service m) (user : UserId) (text : String) (amount : Decimal) :
    Operation m (Scheduling LedgerEntry) := do
  let number ← readNumber text
  match Withdrawal.request number user amount with
  | .error e => refuse (.invalidAmount e)
  | .ok withdrawal =>
      let receipt ← askAmount (s.store.withdraw withdrawal)
      match receipt.anchor with
      | .created order => return ⟨receipt.entry, some order⟩
      | .alreadyOwned _ => return ⟨receipt.entry, none⟩

/-- The withdrawals of a user, newest first. -/
def withdrawalsOf (s : Service m) (user : UserId) : Operation m (List LedgerEntry) :=
  ask (s.store.withdrawalsOf user)

/-- The store answers. -/
def ping (s : Service m) : Operation m Unit := ask s.store.ping

end Service

end Rewards
