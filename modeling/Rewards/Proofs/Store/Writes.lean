import Mathlib.Logic.Relation
import Rewards.Proofs.Store.Operations

/-!
# What the store writes

Whatever the operations of the store do is made of four writes: a user is registered, an order is
uploaded, an order goes one step forward in its life cycle, and a withdrawal is debited. The
theorems `create_order_cases`, `transition_cases` and `withdraw_cases` say when an operation does
which of them, so that nothing else has to look into the operations.
-/

namespace Rewards.Store

/-- A change of status that is checked against no order: it is a step of the life cycle, and an
accrual comes only with the end of processing. -/
def Allowed (source target : OrderStatus) (accrual : Option Decimal) : Prop :=
  source.canBecome target = true ∧ (accrual.isSome = true → target = .processed)

/-- An order at its next status. It keeps its accrual if it is given none. -/
def moved (order : Order) (target : OrderStatus) (accrual : Option Decimal) : Order :=
  { order with status := target, accrual := accrual.getD order.accrual }

/-- The store with an order replaced and with the credit that the order earns. -/
def settle (s : Store) (order : Order) (now : Instant) : Store :=
  { s.putOrder order with entries := s.entries ++ creditFor order now }

/-- The store after one of the four writes. A write says what has been checked before it. -/
inductive Write (s : Store) : Store → Prop where
  | register (user : User) (login : String) (id : UserId) :
      Write s { s with users := s.users ++ [user], logins := s.logins ++ [(login, id)] }
  | upload (number : OrderNumber) (owner : UserId) (uploadedAt : Instant) :
      s.order? number = none →
      Write s { s with orders := s.orders ++ [Order.upload number owner uploadedAt] }
  | advance (order : Order) (target : OrderStatus) (accrual : Option Decimal) (now : Instant) :
      s.order? order.number = some order →
      Allowed order.status target accrual →
      Write s (s.settle (moved order target accrual) now)
  | debit (w : Withdrawal) (now : Instant) (balance : Balance) (anchor : Order) :
      s.balance? w.user = some balance →
      w.checkFunds balance.current = .ok () →
      s.order? w.order = some anchor →
      anchor.owner = w.user →
      Write s { s with entries := s.entries ++ [w.toEntry now] }

/-- The store after any number of writes. -/
abbrev Writes : Store → Store → Prop := Relation.ReflTransGen Write

/-- What every write keeps is kept by any number of them. -/
theorem Writes.keep {P : Store → Prop} (hstep : ∀ {s t : Store}, Write s t → P s → P t)
    {s t : Store} (h : Writes s t) (hs : P s) : P t := by
  induction h with
  | refl => exact hs
  | tail _ hwrite ih => exact hstep hwrite ih

/-! ## Operations as writes -/

/-- The check of a change of status passes for the allowed ones. -/
theorem check_transition_ok_iff {source target : OrderStatus} {accrual : Option Decimal} :
    checkTransition source target accrual = .ok () ↔ Allowed source target accrual := by
  unfold checkTransition Allowed
  cases hstep : source.canBecome target <;> cases accrual <;>
    by_cases htarget : target = .processed <;> simp [htarget]

section Uploads

variable {s : Store} {number : OrderNumber} {order : Order} {owner : UserId} {uploadedAt : Instant}

/-- A number that is not found is stored. -/
theorem create_order_new (h : s.order? number = none) :
    s.createOrder number owner uploadedAt =
      .ok (.created (Order.upload number owner uploadedAt),
        { s with orders := s.orders ++ [Order.upload number owner uploadedAt] }) := by
  simp [createOrder, h]

/-- A user who has uploaded the number before is given its order. -/
theorem create_order_owned (h : s.order? number = some order) (howner : order.owner = owner) :
    s.createOrder number owner uploadedAt = .ok (.alreadyOwned order, s) := by
  simp [createOrder, h, Order.isOwnedBy, howner]

/-- A number that is another user's is refused. -/
theorem create_order_refused (h : s.order? number = some order) (hother : order.owner ≠ owner) :
    s.createOrder number owner uploadedAt = .error (.orderOwnedByAnotherUser number) := by
  simp [createOrder, h, Order.isOwnedBy, hother]

end Uploads

/-- An upload finds the order of its user, finds that of another one, or stores a new order. -/
theorem create_order_cases (s : Store) (number : OrderNumber) (owner : UserId)
    (uploadedAt : Instant) :
    (∃ order, s.order? number = some order ∧ order.owner = owner ∧
      s.createOrder number owner uploadedAt = .ok (.alreadyOwned order, s)) ∨
    (∃ order, s.order? number = some order ∧ order.owner ≠ owner ∧
      s.createOrder number owner uploadedAt = .error (.orderOwnedByAnotherUser number)) ∨
    (s.order? number = none ∧
      s.createOrder number owner uploadedAt =
        .ok (.created (Order.upload number owner uploadedAt),
          { s with orders := s.orders ++ [Order.upload number owner uploadedAt] })) := by
  cases hfound : s.order? number with
  | none => exact .inr (.inr ⟨rfl, create_order_new hfound⟩)
  | some order =>
      by_cases howner : order.owner = owner
      · exact .inl ⟨order, rfl, howner, create_order_owned hfound howner⟩
      · exact .inr (.inl ⟨order, rfl, howner, create_order_refused hfound howner⟩)

/-- A change of status is not allowed, has no order, finds the order elsewhere, or moves it. -/
theorem transition_cases (s : Store) (number : OrderNumber) (source target : OrderStatus)
    (accrual : Option Decimal) (now : Instant) :
    (¬ Allowed source target accrual ∧
      ∃ e, s.transition number source target accrual now = .error e) ∨
    (Allowed source target accrual ∧ s.order? number = none ∧
      s.transition number source target accrual now = .error (.orderNotFound number)) ∨
    (∃ order, Allowed source target accrual ∧ s.order? number = some order ∧
      order.status ≠ source ∧
      s.transition number source target accrual now = .ok (false, s)) ∨
    (∃ order, Allowed source target accrual ∧ s.order? number = some order ∧
      order.status = source ∧
      s.transition number source target accrual now =
        .ok (true, s.settle (moved order target accrual) now)) := by
  cases hcheck : checkTransition source target accrual with
  | error e =>
      refine .inl ⟨fun h => ?_, e, by simp [transition, hcheck, bind, Except.bind]⟩
      rw [← check_transition_ok_iff, hcheck] at h
      cases h
  | ok =>
      have hallowed := check_transition_ok_iff.mp hcheck
      refine .inr ?_
      cases hfound : s.order? number with
      | none =>
          exact .inl ⟨hallowed, rfl, by simp [transition, hcheck, hfound, bind, Except.bind]⟩
      | some order =>
          refine .inr ?_
          by_cases hstatus : order.status = source
          · refine .inr ⟨order, hallowed, rfl, hstatus, ?_⟩
            simp [transition, hcheck, hfound, hstatus, bind, Except.bind, settle, moved, putOrder]
          · refine .inl ⟨order, hallowed, rfl, hstatus, ?_⟩
            simp [transition, hcheck, hfound, hstatus, bind, Except.bind]

/-- A withdrawal has no balance, is not covered, names the order of another user, or is
debited. -/
theorem withdraw_cases (s : Store) (w : Withdrawal) (now : Instant) :
    (s.balance? w.user = none ∧ s.withdraw w now = .error .overflow) ∨
    (∃ balance, s.balance? w.user = some balance ∧ balance.current.lt w.amount = true ∧
      s.withdraw w now =
        .error (.refused (.withdrawal (.insufficientFunds w.amount balance.current)))) ∨
    (∃ balance order, s.balance? w.user = some balance ∧ balance.current.lt w.amount = false ∧
      s.order? w.order = some order ∧ order.owner ≠ w.user ∧
      s.withdraw w now = .error (.refused (.orderOwnedByAnotherUser w.order))) ∨
    (∃ balance anchor t, s.balance? w.user = some balance ∧
      balance.current.lt w.amount = false ∧ s.createOrder w.order w.user now = .ok (anchor, t) ∧
      s.withdraw w now =
        .ok (⟨w.toEntry now, anchor⟩, { t with entries := t.entries ++ [w.toEntry now] })) := by
  cases hbalance : s.balance? w.user with
  | none => exact .inl ⟨rfl, by simp [withdraw, hbalance]⟩
  | some balance =>
      refine .inr ?_
      cases hfunds : balance.current.lt w.amount with
      | true =>
          exact .inl ⟨balance, rfl, hfunds,
            by simp [withdraw, hbalance, Withdrawal.checkFunds, hfunds]⟩
      | false =>
          refine .inr ?_
          rcases create_order_cases s w.order w.user now with
            ⟨order, hfound, howner, heq⟩ | ⟨order, hfound, howner, heq⟩ | ⟨hfound, heq⟩
          · exact .inr ⟨balance, _, _, rfl, hfunds, heq,
              by simp [withdraw, hbalance, Withdrawal.checkFunds, hfunds, heq]⟩
          · exact .inl ⟨balance, order, rfl, hfunds, hfound, howner,
              by simp [withdraw, hbalance, Withdrawal.checkFunds, hfunds, heq]⟩
          · exact .inr ⟨balance, _, _, rfl, hfunds, heq,
              by simp [withdraw, hbalance, Withdrawal.checkFunds, hfunds, heq]⟩

end Rewards.Store
