import Rewards.Order.Basic

/-!
# Operations of an order

When an order can be started, resolved and rejected, and what it is afterwards.
-/

namespace Rewards.Order

variable {o p : Order}

/-- An order moves along the life cycle and keeps everything but its status. -/
theorem advance_ok_iff {next : OrderStatus} :
    o.advance next = .ok p ↔ o.status.canBecome next = true ∧ p = { o with status := next } := by
  unfold advance
  split
  · rename_i hstep
    simp [hstep, eq_comm]
  · rename_i hstep
    simp [hstep]

/-- Exactly the new orders can be started. -/
theorem start_ok_iff :
    o.start = .ok p ↔ o.status = .new ∧ p = { o with status := .processing } := by
  rw [start, advance_ok_iff]
  cases o.status <;> simp [OrderStatus.canBecome]

/-- Exactly the orders that are being processed can be resolved, with no negative amount. -/
theorem resolve_ok_iff {amount : Decimal} :
    o.resolve amount = .ok p ↔ o.status = .processing ∧ amount.isNegative = false ∧
      p = { o with status := .processed, accrual := amount } := by
  unfold resolve
  cases hnegative : amount.isNegative with
  | true => simp
  | false =>
      cases hadvance : o.advance .processed with
      | error e =>
          have hstatus : o.status ≠ .processing := by
            intro hprocessing
            have hok : o.advance .processed = .ok { o with status := .processed } :=
              advance_ok_iff.mpr ⟨by rw [hprocessing]; rfl, rfl⟩
            rw [hadvance] at hok
            cases hok
          simp [hstatus]
      | ok advanced =>
          obtain ⟨hstep, rfl⟩ := advance_ok_iff.mp hadvance
          have hstatus : o.status = .processing := by
            cases hstatus : o.status <;> rw [hstatus] at hstep <;> trivial
          simp [hstatus, eq_comm]

/-- Exactly the orders that are being processed can be rejected. -/
theorem reject_ok_iff :
    o.reject = .ok p ↔ o.status = .processing ∧ p = { o with status := .invalid } := by
  rw [reject, advance_ok_iff]
  cases o.status <;> simp [OrderStatus.canBecome]

end Rewards.Order
