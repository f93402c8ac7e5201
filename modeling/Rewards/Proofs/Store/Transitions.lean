import Rewards.Proofs.Decimal.Value
import Rewards.Proofs.Order.InPlace
import Rewards.Proofs.Order.Operations
import Rewards.Proofs.Store.Calls
import Rewards.Proofs.Store.LifeCycle

/-!
# Changes of status and operations of an order

An attempt holds a copy of the order that it works on. It changes the copy by the operations of an
order and the store by changes of status, each with checks of its own. The main statement,
`transitions_agree`, says that both come to the same: both take place or neither does, and then the
store has the order as the copy is. The exception is an amount below zero, which an operation
refuses. The store checks statuses only and stores it, without a credit.
-/

namespace Rewards.Store

open Rewards.Order (Change)

variable {s : Store} {order : Order} {source target : OrderStatus} {accrual : Option Decimal}

/-- A call on an order that the store has, and an operation on a copy of it, come to the same. -/
structure Agrees (s : Store) (order : Order) (call : Call) (change : Change Unit) : Prop where
  both : ((perform call).run s).1 = .moved (.ok true) ↔ (change.apply order).1 = .ok ()
  stored : ((perform call).run s).2.order? order.number = some (change.apply order).2
  unchanged : (change.apply order).1 ≠ .ok () →
    ((perform call).run s).2 = s ∧ (change.apply order).2 = order

/-- An allowed change of status moves an order that has the expected status. -/
theorem perform_transition_moved (hfound : s.order? order.number = some order)
    (hallowed : Allowed source target accrual) (hstatus : order.status = source) (now : Instant) :
    (perform (.transition order.number source target accrual now)).run s =
      (.moved (.ok true), s.settle (moved order target accrual) now) := by
  have heq : s.transition order.number source target accrual now =
      .ok (true, s.settle (moved order target accrual) now) := by
    rcases transition_cases s order.number source target accrual now with
      ⟨hnot, _⟩ | ⟨_, hnone, _⟩ | ⟨found, _, hlookup, hother, _⟩ | ⟨found, _, hlookup, _, heq⟩
    · exact absurd hallowed hnot
    · cases hfound.symm.trans hnone
    · cases hfound.symm.trans hlookup
      exact absurd hstatus hother
    · cases hfound.symm.trans hlookup
      exact heq
  simp only [perform, run_reply, apply_transition, heq]
  rfl

/-- An allowed change of status leaves an order alone that has another status. -/
theorem perform_transition_elsewhere (hfound : s.order? order.number = some order)
    (hallowed : Allowed source target accrual) (hstatus : order.status ≠ source) (now : Instant) :
    (perform (.transition order.number source target accrual now)).run s =
      (.moved (.ok false), s) := by
  have heq : s.transition order.number source target accrual now = .ok (false, s) := by
    rcases transition_cases s order.number source target accrual now with
      ⟨hnot, _⟩ | ⟨_, hnone, _⟩ | ⟨_, _, _, _, heq⟩ | ⟨found, _, hlookup, hsame, _⟩
    · exact absurd hallowed hnot
    · cases hfound.symm.trans hnone
    · exact heq
    · cases hfound.symm.trans hlookup
      exact absurd hsame hstatus
  simp only [perform, run_reply, apply_transition, heq]
  rfl

/-- A moved order is what the store has under its number. -/
theorem lookup_moved (hfound : s.order? order.number = some order) (target : OrderStatus)
    (accrual : Option Decimal) (now : Instant) :
    (s.settle (moved order target accrual) now).order? order.number =
      some (moved order target accrual) := by
  rw [lookup_settle, hfound]
  exact congrArg some (if_pos rfl)

/-- An operation that takes place at one status only, and moves the order as the change of status
does, agrees with it. -/
theorem agrees_of_moves {change : Change Unit} {result : Except DomainError Order}
    (hfound : s.order? order.number = some order) (hallowed : Allowed source target accrual)
    (happly : change.apply order = Change.inPlace order result)
    (hmoves : ∀ p, result = .ok p ↔ order.status = source ∧ p = moved order target accrual)
    (now : Instant) :
    Agrees s order (.transition order.number source target accrual now) change := by
  by_cases hstatus : order.status = source
  · obtain rfl : result = .ok (moved order target accrual) := (hmoves _).mpr ⟨hstatus, rfl⟩
    have hcall := perform_transition_moved hfound hallowed hstatus now
    refine ⟨?_, ?_, ?_⟩
    · rw [hcall, happly]
      exact iff_of_true rfl rfl
    · rw [hcall, happly]
      exact lookup_moved hfound target accrual now
    · intro hrefused
      rw [happly] at hrefused
      exact absurd rfl hrefused
  · obtain ⟨e, rfl⟩ : ∃ e, result = .error e := by
      cases result with
      | error e => exact ⟨e, rfl⟩
      | ok p => exact absurd ((hmoves p).mp rfl).1 hstatus
    have hcall := perform_transition_elsewhere hfound hallowed hstatus now
    refine ⟨?_, ?_, ?_⟩
    · rw [hcall, happly]
      exact iff_of_false nofun nofun
    · rw [hcall, happly]
      exact hfound
    · intro _
      rw [hcall, happly]
      exact ⟨rfl, rfl⟩

/-- An amount below zero is stored without a credit. -/
theorem credit_for_negative {amount : Decimal} (hnegative : amount.value < 0) (now : Instant) :
    creditFor (moved order .processed (some amount)) now = [] := by
  have hnot : ¬ amount.isPositive = true := by
    rw [Decimal.is_positive_iff]
    exact not_lt_of_gt hnegative
  exact if_neg fun h => hnot h.2

/-- The claim of a new order and the start of a copy agree, and so do the rejection of an order by
the store and by a copy, and its resolution with an amount that is not below zero. With an amount
below zero a copy refuses and stays as it is. The store looks at the status only: it takes the
amount for an order that is being processed, without a credit, and otherwise stays as it is. -/
theorem transitions_agree (s : Store) {order : Order} (hfound : s.order? order.number = some order)
    (now : Instant) :
    Agrees s order (.transition order.number .new .processing none now) Change.start ∧
    Agrees s order (.transition order.number .processing .invalid none now) Change.reject ∧
    (∀ amount : Decimal, 0 ≤ amount.value →
      Agrees s order (.transition order.number .processing .processed (some amount) now)
        (Change.resolve amount)) ∧
    (∀ amount : Decimal, amount.value < 0 →
      let result :=
        (perform (.transition order.number .processing .processed (some amount) now)).run s
      (Change.resolve amount).apply order =
        (.error (.validation s!"accrual must not be negative, got {amount.toText}"), order) ∧
      (result.1 = .moved (.ok true) ↔ order.status = .processing) ∧
      (order.status = .processing →
        result.2.order? order.number =
          some { order with status := .processed, accrual := amount } ∧
        result.2.entries = s.entries) ∧
      (order.status ≠ .processing → result.2 = s)) := by
  have hclaimed : Allowed .new .processing none := ⟨rfl, fun h => nomatch h⟩
  have hrejected : Allowed .processing .invalid none := ⟨rfl, fun h => nomatch h⟩
  have hresolved (amount : Decimal) : Allowed .processing .processed (some amount) :=
    ⟨rfl, fun _ => rfl⟩
  refine ⟨?_, ?_, ?_, ?_⟩
  · exact agrees_of_moves hfound hclaimed (Change.apply_start order)
      (fun _ => Order.start_ok_iff) now
  · exact agrees_of_moves hfound hrejected (Change.apply_reject order)
      (fun _ => Order.reject_ok_iff) now
  · intro amount hamount
    refine agrees_of_moves hfound (hresolved amount) (Change.apply_resolve amount order)
      (fun p => ?_) now
    rw [Order.resolve_ok_iff, and_iff_right (Decimal.nonneg_iff.mpr hamount)]
    exact Iff.rfl
  · intro amount hnegative result
    have hrefused := (Decimal.is_negative_iff amount).mpr hnegative
    refine ⟨?_, ?_⟩
    · rw [Change.apply_resolve, Order.resolve, if_pos hrefused]
      rfl
    by_cases hstatus : order.status = .processing
    · have hcall : result = _ := perform_transition_moved hfound (hresolved amount) hstatus now
      rw [hcall]
      refine ⟨iff_of_true rfl hstatus, fun _ => ⟨lookup_moved hfound _ _ now, ?_⟩, absurd hstatus⟩
      show s.entries ++ creditFor _ now = s.entries
      rw [credit_for_negative hnegative, List.append_nil]
    · have hcall : result = _ :=
        perform_transition_elsewhere hfound (hresolved amount) hstatus now
      rw [hcall]
      exact ⟨iff_of_false nofun hstatus, fun h => absurd h hstatus, fun _ => rfl⟩

/-- The store after the default user has uploaded an order and an attempt has claimed it. -/
def claimed (number : OrderNumber) : Store :=
  after [.createOrder number default default, .transition number .new .processing none default]

/-- An order that earns nothing: the store and a copy both resolve it, and are the same then. -/
theorem transitions_agree_zero :
    let order : Order := { Order.upload ⟨"125", rfl⟩ default default with status := .processing }
    let result := (perform (.transition order.number .processing .processed (some .zero)
      default)).run (claimed order.number)
    result.1 = .moved (.ok true) ∧
      result.2.order? order.number = some ((Change.resolve .zero).apply order).2 := by
  intro order result
  have hfound : (claimed order.number).order? order.number = some order := by decide +kernel
  obtain ⟨_, _, hresolved, _⟩ := transitions_agree (claimed order.number) hfound default
  have hagrees := hresolved .zero (by rw [Decimal.value_zero])
  exact ⟨hagrees.both.mpr (by decide +kernel), hagrees.stored⟩

/-- The store resolves an order with an amount of minus one, which a copy of it refuses. -/
theorem negative_amount_disagrees :
    let order : Order := { Order.upload ⟨"125", rfl⟩ default default with status := .processing }
    let amount : Decimal := ⟨-1, 0, by decide, by decide⟩
    (claimed order.number).order? order.number = some order ∧
      ¬ Agrees (claimed order.number) order
        (.transition order.number .processing .processed (some amount) default)
        (Change.resolve amount) := by
  intro order amount
  refine ⟨by decide +kernel, fun hagrees => ?_⟩
  have hrefused : ((Change.resolve amount).apply order).1 ≠ .ok () := by decide +kernel
  exact hrefused (hagrees.both.mp (by decide +kernel))

end Rewards.Store
