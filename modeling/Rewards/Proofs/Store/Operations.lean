import Rewards.Proofs.Store.Orders
import Rewards.Store.InPlace

/-!
# Operations as one step

An operation in place reads and writes part by part and stops where it is refused. The theorems
`apply_…` on any `Storage` say what it does and in which order, and those called `…_atomic` what
follows from that order: a refused operation has written nothing by the time it stops. So on a
`Store` it can be seen as one step, which checks everything and gives the store after it, if there
is one.
-/

namespace Rewards

namespace Storage

variable {σ ε δ α β : Type} {s t : σ}

/-! ## Parts of operations -/

/-- An operation goes on with the store that its first part leaves, and stops if that part does. -/
theorem apply_bind (change : Change σ ε α) (next : α → Change σ ε β) (s : σ) :
    (change >>= next).apply s =
      match change.apply s with
      | (.ok a, t) => (next a).apply t
      | (.error e, t) => (.error e, t) := by
  rw [Change.apply, Change.apply, ExceptT.run_bind, StateT.run_bind]
  generalize (ExceptT.run change).run s = outcome
  rcases outcome with ⟨_ | _, t⟩ <;> rfl

/-- Another refusal is the same otherwise. -/
theorem apply_adapt (f : ε → δ) (change : Change σ ε α) (s : σ) :
    Change.apply (ExceptT.adapt f change) s =
      ((change.apply s).1.mapError f, (change.apply s).2) := rfl

/-- A check writes nothing. -/
theorem apply_check (check : Except ε α) (s : σ) :
    (liftM check : Change σ ε α).apply s = (check, s) := rfl

/-! ## What each operation does -/

variable [Storage σ]

/-- A registration adds the login and the user if the login is free. -/
theorem apply_create_user (id : UserId) (login passwordHash : String) (s : σ) :
    (createUser id login passwordHash).apply s =
      if (idOfLogin? s login).isSome then (.error (.loginTaken login), s)
      else
        (.ok ⟨id, login, passwordHash⟩,
          addUser ⟨id, login, passwordHash⟩ (addLogin login id s)) := by
  show (if (idOfLogin? s login).isSome = true then _ else _ : Change σ StoreError User).apply s = _
  split <;> rfl

/-- An upload finds the order of its user or that of another one, or adds a new order. -/
theorem apply_create_order (number : OrderNumber) (owner : UserId) (uploadedAt : Instant) (s : σ) :
    (createOrder number owner uploadedAt).apply s =
      match order? s number with
      | some order =>
          if order.isOwnedBy owner then (.ok (.alreadyOwned order), s)
          else (.error (.orderOwnedByAnotherUser number), s)
      | none =>
          (.ok (.created (Order.upload number owner uploadedAt)),
            insertOrder (Order.upload number owner uploadedAt) s) := by
  show (match order? s number with
    | some order => if order.isOwnedBy owner = true then _ else _
    | none => _ : Change σ StoreError OrderCreation).apply s = _
  cases order? s number with
  | none => rfl
  | some order => dsimp only; split <;> rfl

/-- The credit of an order that has just been processed, if it earned anything. -/
def addCredit (order : Order) (now : Instant) (s : σ) : σ :=
  if order.status = .processed ∧ order.accrual.isPositive then
    addEntry ⟨order.number, order.owner, order.accrual, now⟩ s
  else s

/-- A change of status is checked, and then moves the order if there is one with the expected
status. -/
theorem apply_transition (number : OrderNumber) (source target : OrderStatus)
    (accrual : Option Decimal) (now : Instant) (s : σ) :
    (transition number source target accrual now).apply s =
      match Store.checkTransition source target accrual with
      | .error e => (.error e, s)
      | .ok () =>
          match order? s number with
          | none => (.error (.orderNotFound number), s)
          | some order =>
              let updated : Order :=
                ⟨number, order.owner, target, accrual.getD order.accrual, order.uploadedAt⟩
              if order.status ≠ source then (.ok false, s)
              else (.ok true, insertOrder updated (addCredit updated now s)) := by
  rw [transition, apply_bind, apply_check]
  cases Store.checkTransition source target accrual with
  | error e => rfl
  | ok =>
      show (match order? s number with
        | none => _
        | some order => if order.status ≠ source then _ else _ :
          Change σ StoreError Bool).apply s = _
      cases order? s number with
      | none => rfl
      | some order =>
          dsimp only
          split
          · rfl
          · unfold addCredit
            dsimp only
            split <;> rfl

/-- A withdrawal is checked against the balance, then against the owner of the order, and is entered
last. -/
theorem apply_withdraw (w : Withdrawal) (now : Instant) (s : σ) :
    (withdraw w now).apply s =
      match Balance.ofEntries? (entriesOf s w.user) with
      | none => (.error .overflow, s)
      | some balance =>
          match w.checkFunds balance.current with
          | .error e => (.error (.refused (.withdrawal e)), s)
          | .ok () =>
              match (createOrder w.order w.user now).apply s with
              | (.error e, t) => (.error (.refused e), t)
              | (.ok anchor, t) => (.ok ⟨w.toEntry now, anchor⟩, addEntry (w.toEntry now) t) := by
  show (match Balance.ofEntries? (entriesOf s w.user) with
    | none => _
    | some balance => _ : Change σ (Failure StoreError) WithdrawalReceipt).apply s = _
  cases Balance.ofEntries? (entriesOf s w.user) with
  | none => rfl
  | some balance =>
      dsimp only
      rw [apply_bind, apply_check]
      cases w.checkFunds balance.current with
      | error e => rfl
      | ok =>
          show Change.apply (_ >>= _) s = _
          rw [apply_bind, apply_adapt]
          generalize (createOrder w.order w.user now).apply s = outcome
          rcases outcome with ⟨_ | _, t⟩ <;> rfl

/-! ## Refusals -/

/-- Nothing has been written by the time the operation is refused. -/
def Change.IsAtomic (change : Change σ ε α) : Prop :=
  ∀ s e, (change.apply s).1 = .error e → (change.apply s).2 = s

-- Stopping alone takes nothing back: an entry that is added before the last check stays.
example (entry : LedgerEntry) (s : σ) :
    Change.apply (do modify (addEntry entry); throw .overflow : Change σ (Failure Empty) Unit) s =
      (.error .overflow, addEntry entry s) := rfl

/-- A registration that is refused has written nothing. -/
theorem create_user_atomic (id : UserId) (login passwordHash : String) :
    (createUser id login passwordHash : Change σ StoreError User).IsAtomic := by
  intro s e h
  rw [apply_create_user] at h ⊢
  split at h
  · rw [if_pos ‹_›]
  · cases h

/-- An upload that is refused has written nothing. -/
theorem create_order_atomic (number : OrderNumber) (owner : UserId) (uploadedAt : Instant) :
    (createOrder number owner uploadedAt : Change σ StoreError OrderCreation).IsAtomic := by
  intro s e h
  rw [apply_create_order] at h ⊢
  cases hfound : order? s number with
  | none => rw [hfound] at h; cases h
  | some order =>
      rw [hfound] at h
      dsimp only at h ⊢
      split at h
      · cases h
      · rw [if_neg ‹_›]

/-- A change of status that is refused has written nothing. -/
theorem transition_atomic (number : OrderNumber) (source target : OrderStatus)
    (accrual : Option Decimal) (now : Instant) :
    (transition number source target accrual now : Change σ StoreError Bool).IsAtomic := by
  intro s e h
  rw [apply_transition] at h ⊢
  cases hcheck : Store.checkTransition source target accrual with
  | error e => rfl
  | ok =>
      rw [hcheck] at h
      cases hfound : order? s number with
      | none => rfl
      | some order =>
          rw [hfound] at h
          dsimp only at h
          split at h <;> cases h

/-- A withdrawal that is refused has written nothing. The order that it counts against is added
after the last check that can fail, and the entry after that. -/
theorem withdraw_atomic (w : Withdrawal) (now : Instant) :
    (withdraw w now : Change σ (Failure StoreError) WithdrawalReceipt).IsAtomic := by
  intro s e h
  have hanchor := create_order_atomic w.order w.user now s
  rw [apply_withdraw] at h ⊢
  cases hbalance : Balance.ofEntries? (entriesOf s w.user) with
  | none => rfl
  | some balance =>
      rw [hbalance] at h
      dsimp only at h ⊢
      cases hfunds : w.checkFunds balance.current with
      | error e => rfl
      | ok =>
          rw [hfunds] at h
          dsimp only at h ⊢
          generalize (createOrder w.order w.user now).apply s = outcome at h hanchor ⊢
          obtain ⟨said, t⟩ := outcome
          cases said with
          | error e => exact hanchor e rfl
          | ok anchor => cases h

end Storage

namespace Store

/-! ## The operations as one step -/

/-- Register a user under a new identifier. -/
def createUser (s : Store) (id : UserId) (login passwordHash : String) :
    Except StoreError (User × Store) :=
  if (s.idOfLogin? login).isSome then .error (.loginTaken login)
  else
    let user : User := ⟨id, login, passwordHash⟩
    .ok (user, { s with users := s.users ++ [user], logins := s.logins ++ [(login, id)] })

/-- Store a new order, or say that the user already has it. -/
def createOrder (s : Store) (number : OrderNumber) (owner : UserId) (uploadedAt : Instant) :
    Except StoreError (OrderCreation × Store) :=
  match s.order? number with
  | some order =>
      if order.isOwnedBy owner then .ok (.alreadyOwned order, s)
      else .error (.orderOwnedByAnotherUser number)
  | none =>
      let order := Order.upload number owner uploadedAt
      .ok (.created order, { s with orders := s.orders ++ [order] })

/-- The ledger entries of an order that has just been processed: a credit if it earned anything. -/
def creditFor (order : Order) (now : Instant) : List LedgerEntry :=
  if order.status = .processed ∧ order.accrual.isPositive then
    [⟨order.number, order.owner, order.accrual, now⟩]
  else []

/-- Move an order to another status if it still has the expected one, and say whether it had. The
credit of an order that becomes processed is part of the same step. -/
def transition (s : Store) (number : OrderNumber) (source target : OrderStatus)
    (accrual : Option Decimal) (now : Instant) : Except StoreError (Bool × Store) := do
  checkTransition source target accrual
  match s.order? number with
  | none => .error (.orderNotFound number)
  | some order =>
      if order.status ≠ source then .ok (false, s)
      else
        let updated := { order with status := target, accrual := accrual.getD order.accrual }
        let moved := s.putOrder updated
        .ok (true, { moved with entries := moved.entries ++ creditFor updated now })

/-- Withdraw from the balance of a user: the funds have to suffice, and the order has to be the
user's or a new one. -/
def withdraw (s : Store) (w : Withdrawal) (now : Instant) :
    Except (Failure StoreError) (WithdrawalReceipt × Store) :=
  match s.balance? w.user with
  | none => .error .overflow
  | some balance =>
      match w.checkFunds balance.current with
      | .error e => .error (.refused (.withdrawal e))
      | .ok () =>
          match s.createOrder w.order w.user now with
          | .error e => .error (.refused e)
          | .ok (anchor, s) =>
              let entry := w.toEntry now
              .ok (⟨entry, anchor⟩, { s with entries := s.entries ++ [entry] })

/-- What an operation in one step says in place, and the store after it. -/
def inPlace {ε α : Type} (s : Store) : Except ε (α × Store) → Except ε α × Store
  | .ok (result, t) => (.ok result, t)
  | .error e => (.error e, s)

variable (s : Store)

/-- In place a user is registered in one step. -/
theorem apply_create_user (id : UserId) (login passwordHash : String) :
    (Storage.createUser id login passwordHash).apply s =
      s.inPlace (s.createUser id login passwordHash) := by
  rw [Storage.apply_create_user, createUser]
  show (if (s.idOfLogin? login).isSome = true then _ else _) = _
  split <;> rfl

/-- In place an order is uploaded in one step. -/
theorem apply_create_order (number : OrderNumber) (owner : UserId) (uploadedAt : Instant) :
    (Storage.createOrder number owner uploadedAt).apply s =
      s.inPlace (s.createOrder number owner uploadedAt) := by
  rw [Storage.apply_create_order, createOrder]
  show (match s.order? number with
    | some order => _
    | none => (_, s.insertOrder (Order.upload number owner uploadedAt))) = _
  cases hfound : s.order? number with
  | none =>
      have hnone : s.order? (Order.upload number owner uploadedAt).number = none := hfound
      rw [insertOrder, hnone]
      rfl
  | some order => dsimp only; split <;> rfl

/-- The credit of an order is added behind the other entries, if there is one. -/
theorem add_credit_eq (order : Order) (now : Instant) :
    Storage.addCredit order now s = { s with entries := s.entries ++ creditFor order now } := by
  unfold Storage.addCredit creditFor
  split
  · rfl
  · rw [List.append_nil]

/-- In place an order changes its status in one step. -/
theorem apply_transition (number : OrderNumber) (source target : OrderStatus)
    (accrual : Option Decimal) (now : Instant) :
    (Storage.transition number source target accrual now).apply s =
      s.inPlace (s.transition number source target accrual now) := by
  rw [Storage.apply_transition, transition]
  cases checkTransition source target accrual with
  | error e => rfl
  | ok =>
      show (match s.order? number with
        | none => _
        | some order => _) = s.inPlace (match s.order? number with
        | none => _
        | some order => _)
      cases hfound : s.order? number with
      | none => rfl
      | some order =>
          obtain rfl := number_of_lookup hfound
          dsimp only
          split
          · rfl
          · -- The credit is added first, which makes no difference to the orders.
            rw [add_credit_eq]
            show (_, insertOrder _ _) = _
            rw [insertOrder, if_pos]
            · rfl
            · exact Option.isSome_of_eq_some hfound

/-- In place a withdrawal goes through in one step. -/
theorem apply_withdraw (w : Withdrawal) (now : Instant) :
    (Storage.withdraw w now).apply s = s.inPlace (s.withdraw w now) := by
  rw [Storage.apply_withdraw, withdraw, apply_create_order]
  show (match s.balance? w.user with
    | none => _
    | some balance => _) = _
  cases s.balance? w.user with
  | none => rfl
  | some balance =>
      dsimp only
      cases w.checkFunds balance.current with
      | error e => rfl
      | ok =>
          dsimp only
          rcases s.createOrder w.order w.user now with _ | ⟨anchor, t⟩ <;> rfl

end Store

end Rewards
