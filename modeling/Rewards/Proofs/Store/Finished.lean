import Rewards.Proofs.Store.Calls
import Rewards.Proofs.Store.LifeCycle

/-!
# Orders that become finished

What an observer who compares two states of the store sees of the orders that are finished. An
allowed move to the end of the life cycle finishes one order; no other write, and no call but a
change of status, finishes any.
-/

namespace Rewards.Store

/-- The orders that one store has finished and an earlier one has not. -/
def newlyFinished (s t : Store) : List OrderNumber :=
  (t.orders.filter fun o =>
    o.status.isTerminal && !(s.order? o.number).any (·.status.isTerminal)).map (·.number)

variable {s t : Store}

/-- An order is newly finished if it was not finished before and is now. -/
theorem mem_newly_finished (hkeyed : t.Keyed) {number : OrderNumber} :
    number ∈ s.newlyFinished t ↔ t.Finished number ∧ ¬ s.Finished number := by
  have hbefore : (s.order? number).any (·.status.isTerminal) = false ↔ ¬ s.Finished number := by
    rw [Bool.eq_false_iff, Ne, Option.any_eq_true]
    exact Iff.rfl
  constructor
  · intro h
    obtain ⟨order, horder, rfl⟩ := List.mem_map.mp h
    obtain ⟨hmem, hstatus⟩ := List.mem_filter.mp horder
    rw [Bool.and_eq_true, Bool.not_eq_true'] at hstatus
    exact ⟨⟨order, hkeyed.lookup_of_mem hmem, hstatus.1⟩, hbefore.mp hstatus.2⟩
  · rintro ⟨⟨order, hfound, hterminal⟩, hopen⟩
    obtain rfl := number_of_lookup hfound
    refine List.mem_map.mpr ⟨order, List.mem_filter.mpr ⟨mem_of_lookup hfound, ?_⟩, rfl⟩
    rw [hterminal, hbefore.mpr hopen]
    rfl

/-- No order is newly finished twice. -/
theorem newly_finished_nodup (hkeyed : t.Keyed) : (s.newlyFinished t).Nodup :=
  hkeyed.sublist (List.filter_sublist.map _)

/-- Nothing is newly finished where nothing has changed. -/
theorem newly_finished_self (hkeyed : s.Keyed) : s.newlyFinished s = [] := by
  rw [List.eq_nil_iff_forall_not_mem]
  intro number h
  obtain ⟨hnow, hbefore⟩ := (mem_newly_finished hkeyed).mp h
  exact hbefore hnow

/-- Moving an order to the end finishes just this order, and moving it elsewhere finishes none. -/
theorem newly_finished_settle (hkeyed : s.Keyed) {order : Order} {target : OrderStatus}
    {accrual : Option Decimal} (hfound : s.order? order.number = some order)
    (hallowed : Allowed order.status target accrual) (now : Instant) :
    s.newlyFinished (s.settle (moved order target accrual) now) =
      if target.isTerminal = true then [order.number] else [] := by
  have hlater := Write.advance order target accrual now hfound hallowed |>.keyed hkeyed
  have hopen := not_finished_of_allowed hfound hallowed
  have hmem (number : OrderNumber) :
      number ∈ s.newlyFinished (s.settle (moved order target accrual) now) ↔
        number = order.number ∧ target.isTerminal = true := by
    rw [mem_newly_finished hlater, finished_settle hfound]
    by_cases hnumber : number = order.number
    · subst hnumber
      simp [hopen]
    · simp [hnumber]
  split
  · -- Without duplicates the list is known by its members.
    rename_i hterminal
    refine List.perm_singleton.mp ?_
    refine (List.perm_ext_iff_of_nodup (newly_finished_nodup hlater)
      (List.nodup_singleton _)).mpr fun number => ?_
    rw [hmem, List.mem_singleton]
    exact and_iff_left hterminal
  · rename_i hterminal
    rw [List.eq_nil_iff_forall_not_mem]
    intro number h
    exact hterminal ((hmem number).mp h).2

/-- A call is a change of status. -/
def Call.isTransition : Call → Bool
  | .transition .. => true
  | _ => false

/-- Only a change of status finishes an order. -/
theorem Effect.finished_before {call : Call} {reply : Reply} (h : Effect s call reply t)
    (hcall : call.isTransition = false) {number : OrderNumber} (hfinished : t.Finished number) :
    s.Finished number := by
  obtain ⟨order, hfound, hterminal⟩ := hfinished
  cases h with
  | nothing | register | debit => exact ⟨order, hfound, hterminal⟩
  | advance => cases hcall
  | upload _ _ _ _ | anchor _ _ _ _ _ _ =>
      -- A new order stands at the beginning of its life cycle.
      change Store.order? { s with orders := s.orders ++ [_] } number = _ at hfound
      rw [lookup_append, Option.or_eq_some_iff] at hfound
      rcases hfound with hfound | ⟨_, hfound⟩
      · exact ⟨order, hfound, hterminal⟩
      · split at hfound
        · cases hfound
          cases hterminal
        · cases hfound

end Rewards.Store
