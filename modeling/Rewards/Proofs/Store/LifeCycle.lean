import Rewards.Proofs.Store.Writes

/-!
# The life of an order

A stored order is never lost. It keeps its number, its owner and the time of its upload, its status
moves along the life cycle, and once its status is terminal nothing of it changes any more. The
theorems say this of a single write; `Writes.leads_to` says it of any number of them.
-/

namespace Rewards

/-! ## Statuses -/

namespace OrderStatus

/-- The status can be reached by steps of the life cycle. -/
abbrev Reaches : OrderStatus → OrderStatus → Prop :=
  Relation.ReflTransGen fun source target => source.canBecome target = true

/-- No step of the life cycle leads back to the beginning. -/
theorem can_become_ne_new {source target : OrderStatus} (h : source.canBecome target = true) :
    target ≠ .new := by
  cases source <;> cases target <;> simp [canBecome] at h ⊢

/-- A step of the life cycle starts at a status that is not terminal. -/
theorem can_become_not_terminal {source target : OrderStatus}
    (h : source.canBecome target = true) : source.isTerminal = false := by
  cases source <;> cases target <;> simp [canBecome, isTerminal] at h ⊢

/-- An order that has been started stays so. -/
theorem Reaches.ne_new {source target : OrderStatus} (h : source.Reaches target)
    (hsource : source ≠ .new) : target ≠ .new := by
  cases h with
  | refl => exact hsource
  | tail _ hstep => exact can_become_ne_new hstep

end OrderStatus

/-! ## Orders -/

/-- What may be stored later under the number of an order. -/
structure Order.LeadsTo (order later : Order) : Prop where
  number : later.number = order.number
  owner : later.owner = order.owner
  uploadedAt : later.uploadedAt = order.uploadedAt
  status : order.status.Reaches later.status
  final : order.status.isTerminal = true → later = order

namespace Order.LeadsTo

/-- An order may stay as it is. -/
theorem refl (order : Order) : order.LeadsTo order :=
  ⟨rfl, rfl, rfl, .refl, fun _ => rfl⟩

/-- What comes later still comes later. -/
theorem trans {order later last : Order} (h : order.LeadsTo later) (hlast : later.LeadsTo last) :
    order.LeadsTo last where
  number := hlast.number.trans h.number
  owner := hlast.owner.trans h.owner
  uploadedAt := hlast.uploadedAt.trans h.uploadedAt
  status := h.status.trans hlast.status
  final hterminal := by
    obtain rfl := h.final hterminal
    exact hlast.final hterminal

end Order.LeadsTo

namespace Store

/-- An allowed change moves an order forward. -/
theorem leads_to_moved {order : Order} {target : OrderStatus} {accrual : Option Decimal}
    (h : Allowed order.status target accrual) : order.LeadsTo (moved order target accrual) where
  number := rfl
  owner := rfl
  uploadedAt := rfl
  status := .single h.1
  final hterminal := by simp [OrderStatus.can_become_not_terminal h.1] at hterminal

/-- Settling an order changes what is found under its number and nothing else. -/
theorem lookup_settle (s : Store) (order : Order) (now : Instant) (number : OrderNumber) :
    (s.settle order now).order? number =
      (s.order? number).map fun found => if number = order.number then order else found :=
  lookup_put s order number

variable {s t : Store}

/-- Whatever is written, a stored order stays stored and moves forward. -/
theorem Write.leads_to (h : Write s t) {number : OrderNumber} {order : Order}
    (hfound : s.order? number = some order) :
    ∃ later, t.order? number = some later ∧ order.LeadsTo later := by
  cases h with
  | register | debit => exact ⟨order, hfound, .refl order⟩
  | upload other owner uploadedAt hnew =>
      refine ⟨order, ?_, .refl order⟩
      rw [lookup_append, hfound]
      rfl
  | advance other target accrual now hother hallowed =>
      rw [lookup_settle, hfound]
      by_cases hnumber : number = other.number
      · subst hnumber
        obtain rfl : order = other := Option.some.inj (hfound.symm.trans hother)
        exact ⟨moved order target accrual, by simp [moved], leads_to_moved hallowed⟩
      · exact ⟨order, by simp [moved, hnumber], .refl order⟩

/-- After any number of writes a stored order is still stored and has moved forward. -/
theorem Writes.leads_to (h : Writes s t) {number : OrderNumber} {order : Order}
    (hfound : s.order? number = some order) :
    ∃ later, t.order? number = some later ∧ order.LeadsTo later := by
  induction h with
  | refl => exact ⟨order, hfound, .refl order⟩
  | tail _ hwrite ih =>
      obtain ⟨later, hlater, hleads⟩ := ih
      obtain ⟨last, hlast, hnext⟩ := hwrite.leads_to hlater
      exact ⟨last, hlast, hleads.trans hnext⟩

/-- The order with this number has been started. -/
def Started (s : Store) (number : OrderNumber) : Prop :=
  ∃ order, s.order? number = some order ∧ order.status ≠ .new

/-- The order with this number is processed or invalid. -/
def Finished (s : Store) (number : OrderNumber) : Prop :=
  ∃ order, s.order? number = some order ∧ order.status.isTerminal = true

/-- Writes do not undo the start of an order. -/
theorem Writes.started (h : Writes s t) {number : OrderNumber} (hs : s.Started number) :
    t.Started number := by
  obtain ⟨order, hfound, hnew⟩ := hs
  obtain ⟨later, hlater, hleads⟩ := h.leads_to hfound
  exact ⟨later, hlater, hleads.status.ne_new hnew⟩

/-- Writes leave a finished order alone. -/
theorem Writes.lookup_finished (h : Writes s t) {number : OrderNumber} {order : Order}
    (hfound : s.order? number = some order) (hterminal : order.status.isTerminal = true) :
    t.order? number = some order := by
  obtain ⟨later, hlater, hleads⟩ := h.leads_to hfound
  rw [hlater, hleads.final hterminal]

/-- Writes do not undo the end of an order. -/
theorem Writes.finished (h : Writes s t) {number : OrderNumber} (hs : s.Finished number) :
    t.Finished number := by
  obtain ⟨order, hfound, hterminal⟩ := hs
  exact ⟨order, h.lookup_finished hfound hterminal, hterminal⟩

/-- An order that may still be moved is not finished. -/
theorem not_finished_of_allowed {order : Order} {target : OrderStatus} {accrual : Option Decimal}
    (hfound : s.order? order.number = some order) (hallowed : Allowed order.status target accrual) :
    ¬ s.Finished order.number := by
  rintro ⟨found, hlookup, hterminal⟩
  obtain rfl : order = found := Option.some.inj (hfound.symm.trans hlookup)
  rw [OrderStatus.can_become_not_terminal hallowed.1] at hterminal
  cases hterminal

/-- A moved order is finished if it has been moved to the end, and the others are as before. -/
theorem finished_settle {order : Order} (hfound : s.order? order.number = some order)
    (target : OrderStatus) (accrual : Option Decimal) (now : Instant) (number : OrderNumber) :
    (s.settle (moved order target accrual) now).Finished number ↔
      if number = order.number then target.isTerminal = true else s.Finished number := by
  unfold Finished
  rw [lookup_settle]
  by_cases hnumber : number = order.number
  · subst hnumber
    simp [hfound, moved]
  · simp [hnumber, moved]

/-- Writes keep the numbers of orders apart. -/
theorem Write.keyed (h : Write s t) (hs : s.Keyed) : t.Keyed := by
  cases h with
  | register | debit => exact hs
  | upload number owner uploadedAt hnew =>
      have hfresh := lookup_eq_none_iff.mp hnew
      unfold Keyed at hs ⊢
      rw [List.map_append, List.nodup_append]
      refine ⟨hs, List.nodup_singleton _, ?_⟩
      rintro a ha b hb rfl
      rw [List.map_singleton, List.mem_singleton] at hb
      rw [hb] at ha
      exact hfresh ha
  | advance order target accrual now hfound hallowed =>
      show (List.map _ (s.putOrder _).orders).Nodup
      rw [put_numbers]
      exact hs

/-- Only a processed order has an accrual. -/
def Unearned (s : Store) : Prop :=
  ∀ number order, s.order? number = some order → order.status ≠ .processed →
    order.accrual = .zero

/-- Writes give no accrual to an order that is not processed. -/
theorem Write.unearned (h : Write s t) (hs : s.Unearned) : t.Unearned := by
  intro number order hfound hstatus
  cases h with
  | register | debit => exact hs number order hfound hstatus
  | upload other owner uploadedAt hnew =>
      rw [lookup_append, Option.or_eq_some_iff] at hfound
      rcases hfound with hfound | ⟨_, hfound⟩
      · exact hs number order hfound hstatus
      · split at hfound
        · cases hfound
          rfl
        · cases hfound
  | advance other target accrual now hother hallowed =>
      rw [lookup_settle, Option.map_eq_some_iff] at hfound
      obtain ⟨found, hfound, heq⟩ := hfound
      split at heq
      · subst heq
        -- The order has been moved elsewhere than to the end of processing, without an accrual.
        have hnone : accrual = none := by
          cases accrual with
          | none => rfl
          | some amount => exact absurd (hallowed.2 rfl) hstatus
        have hbefore : other.status ≠ .processed := by
          intro hprocessed
          have hterminal := OrderStatus.can_become_not_terminal hallowed.1
          rw [hprocessed] at hterminal
          cases hterminal
        rw [moved, hnone]
        exact hs other.number other hother hbefore
      · subst heq
        exact hs number found hfound hstatus

end Store

end Rewards
