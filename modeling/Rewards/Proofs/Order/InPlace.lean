import Rewards.Order.Basic

/-!
# Changing an order in place

Whoever holds an order changes it in place: an operation writes its fields one after the other and
stops where it is refused. Even so it never stops half way: it leaves the order that the operation
of the same name gives or, if that is refused, the order as it was.
-/

namespace Rewards.Order

/-- An operation on an order that is held. What it has written before it is refused stays
written. -/
abbrev Change := ExceptT DomainError (StateM Order)

namespace Change

/-- What an operation says of an order, and the order after it. -/
def apply (change : Change Unit) (o : Order) : Except DomainError Unit × Order :=
  (ExceptT.run change).run o

/-- Move the order one step forward. -/
def advance (next : OrderStatus) : Change Unit := do
  let o ← get
  if o.status.canBecome next then set { o with status := next }
  else
    throw (.invariant
      s!"order {o.number.text} cannot move from {o.status.toText} to {next.toText}")

/-- Start to process a new order. -/
def start : Change Unit := advance .processing

/-- Finish an order with the amount that it earns. -/
def resolve (accrual : Decimal) : Change Unit := do
  if accrual.isNegative then
    throw (.validation s!"accrual must not be negative, got {accrual.toText}")
  else
    advance .processed
    modify fun o => { o with accrual := accrual }

/-- Finish an order that earns nothing because it is not valid. -/
def reject : Change Unit := advance .invalid

/-- What an operation that gives a new order says in place, and the order after it. -/
def inPlace (o : Order) : Except DomainError Order → Except DomainError Unit × Order
  | .ok changed => (.ok (), changed)
  | .error e => (.error e, o)

/-- In place an order moves as it moves otherwise. -/
theorem apply_advance (next : OrderStatus) (o : Order) :
    (advance next).apply o = inPlace o (o.advance next) := by
  have hrun : (advance next).apply o =
      if o.status.canBecome next then (.ok (), { o with status := next })
      else (.error (.invariant
        s!"order {o.number.text} cannot move from {o.status.toText} to {next.toText}"), o) := by
    show ((if o.status.canBecome next = true then _ else _ : Change Unit)).apply o = _
    split <;> rfl
  rw [hrun, Order.advance]
  split <;> rfl

/-- The operations after a first one see what it has written. -/
theorem apply_bind (change later : Change Unit) (o : Order) :
    (change >>= fun _ => later).apply o =
      match change.apply o with
      | (.ok (), changed) => later.apply changed
      | (.error e, changed) => (.error e, changed) := by
  rw [apply, apply, ExceptT.run_bind, StateT.run_bind]
  generalize (ExceptT.run change).run o = outcome
  rcases outcome with ⟨_ | _, changed⟩ <;> rfl

/-- In place an order is started as it is otherwise. -/
theorem apply_start (o : Order) : start.apply o = inPlace o o.start :=
  apply_advance .processing o

/-- In place an order is rejected as it is otherwise. -/
theorem apply_reject (o : Order) : reject.apply o = inPlace o o.reject :=
  apply_advance .invalid o

/-- In place an order is resolved as it is otherwise. The amount comes after the last check. -/
theorem apply_resolve (accrual : Decimal) (o : Order) :
    (resolve accrual).apply o = inPlace o (o.resolve accrual) := by
  unfold resolve Order.resolve
  split
  · rfl
  · rw [apply_bind, apply_advance]
    cases o.advance .processed <;> rfl

end Change

end Rewards.Order
