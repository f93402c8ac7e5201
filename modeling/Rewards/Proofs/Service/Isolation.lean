import Rewards.Proofs.Service.Visits
import Rewards.Proofs.Store.Listings

/-!
# What users see of one another

All orders are in one list and all entries in one ledger, and a user may send the number of another
user's order. Still the orders, the balance and the withdrawals that a user is shown follow from the
orders and the entries of that user alone, and what others do does not touch these. The main
statement is `users_isolated`.
-/

namespace Rewards

open InMemory (perform)

/-! ## What a user has in a store -/

namespace Store

/-- The two stores hold the same users, orders and entries. A map lists users, logins and orders in
any arrangement; entries are kept in their order. -/
structure Arranges (s t : Store) : Prop where
  users : s.users.Perm t.users
  logins : s.logins.Perm t.logins
  orders : s.orders.Perm t.orders
  entries : s.entries = t.entries

/-- The store comes from calls to the empty one, in whatever arrangement it is listed. -/
def Reachable (s : Store) : Prop := ∃ calls, s.Arranges (after calls)

/-- In a store that is reached no two orders have the same number. -/
theorem Reachable.keyed {s : Store} (h : s.Reachable) : s.Keyed := by
  obtain ⟨calls, hcalls⟩ := h
  have hkeyed : (after calls).Keyed := after_keeps List.nodup_nil Write.keyed calls
  exact ((hcalls.orders.map _).nodup_iff).mpr hkeyed

/-- A user has the same orders and the same entries in both stores. -/
structure SameFor (user : UserId) (s t : Store) : Prop where
  orders : ∀ order, order.owner = user → (order ∈ s.orders ↔ order ∈ t.orders)
  entries : s.entriesOf user = t.entriesOf user

variable {s t : Store} {user : UserId}

theorem SameFor.refl (s : Store) : s.SameFor user s := ⟨fun _ _ => Iff.rfl, rfl⟩

theorem SameFor.trans {r : Store} (h : r.SameFor user s) (hnext : s.SameFor user t) :
    r.SameFor user t :=
  ⟨fun order howner => (h.orders order howner).trans (hnext.orders order howner),
    h.entries.trans hnext.entries⟩

/-- An order of somebody else makes no difference. -/
theorem same_for_upload {order : Order} (hother : order.owner ≠ user) :
    s.SameFor user { s with orders := s.orders ++ [order] } where
  orders found howner := by
    have hne : found ≠ order := by
      rintro rfl
      exact hother howner
    simp [hne]
  entries := rfl

/-- Entries of somebody else make no difference. -/
theorem same_for_entries {entries : List LedgerEntry} (hother : ∀ e ∈ entries, e.user ≠ user) :
    s.SameFor user { s with entries := s.entries ++ entries } where
  orders _ _ := Iff.rfl
  entries := by
    have hnone : entries.filter (·.user == user) = [] := by
      rw [List.filter_eq_nil_iff]
      intro e he
      simpa using hother e he
    rw [entries_of_append, hnone, List.append_nil]

/-- If an order takes the place of another one with its number, and neither is of the user, it makes
no difference. -/
theorem same_for_put {order updated : Order} (hkeyed : s.Keyed)
    (hfound : s.order? updated.number = some order) (hother : order.owner ≠ user)
    (hupdated : updated.owner ≠ user) : s.SameFor user (s.putOrder updated) where
  orders kept howner := by
    have hne : kept ≠ updated := by
      rintro rfl
      exact hupdated howner
    -- An order of the user has another number than the one that is replaced.
    have hnumber (hmem : kept ∈ s.orders) : kept.number ≠ updated.number := by
      intro hsame
      have hkept := hkeyed.lookup_of_mem hmem
      rw [hsame, hfound] at hkept
      cases hkept
      exact hother howner
    rw [putOrder, List.mem_map]
    constructor
    · intro hmem
      exact ⟨kept, hmem, by simp [hnumber hmem]⟩
    · rintro ⟨before, hmem, heq⟩
      by_cases hsame : before.number = updated.number
      · simp only [hsame, beq_self_eq_true, if_true] at heq
        exact absurd heq.symm hne
      · simp only [beq_iff_eq, hsame, if_false] at heq
        exact heq ▸ hmem
  entries := rfl

/-- The credit of an order goes to its owner. -/
theorem user_of_credit {order : Order} {now : Instant} {e : LedgerEntry}
    (h : e ∈ creditFor order now) : e.user = order.owner := by
  unfold creditFor at h
  split at h
  · obtain rfl := List.mem_singleton.mp h
    rfl
  · cases h

/-- A change of status of somebody else's order makes no difference. -/
theorem same_for_settle {order : Order} {target : OrderStatus} {accrual : Option Decimal}
    {now : Instant} (hkeyed : s.Keyed) (hfound : s.order? order.number = some order)
    (hother : order.owner ≠ user) : s.SameFor user (s.settle (moved order target accrual) now) := by
  have hput : s.SameFor user (s.putOrder (moved order target accrual)) :=
    same_for_put hkeyed hfound hother hother
  refine hput.trans (same_for_entries fun e he => ?_)
  rw [user_of_credit he]
  exact hother

end Store

/-! ## What a user is shown -/

namespace Service

variable {ω : Type}

/-- The answers to a user who asks for the orders, the balance and the withdrawals. -/
structure Overview where
  orders : Except (Failure ServiceError) (List Order)
  balance : Except (Failure ServiceError) Balance
  withdrawals : Except (Failure ServiceError) (List LedgerEntry)

/-- What a user is shown of a store. -/
def overview (x : Surroundings ω) (user : UserId) (s : Store) (w : ω) : Overview where
  orders := (perform (x.service.ordersOf user).run s w).result
  balance := (perform (x.service.balanceOf user).run s w).result
  withdrawals := (perform (x.service.withdrawalsOf user).run s w).result

/-- The orders come from the orders of the user, and the rest from the entries. -/
theorem overview_eq (x : Surroundings ω) (user : UserId) (s : Store) (w : ω) :
    overview x user s w =
      ⟨.ok (s.ordersOf user),
        match s.balance? user with
        | some balance => .ok balance
        | none => .error .overflow,
        .ok (s.withdrawalsOf user)⟩ := by
  have horders : perform (x.service.store.ordersOf user) s w = ⟨.ok (s.ordersOf user), s, w⟩ := rfl
  have hwithdrawals : perform (x.service.store.withdrawalsOf user) s w =
      ⟨.ok (s.withdrawalsOf user), s, w⟩ := rfl
  rw [overview, ordersOf, balanceOf, withdrawalsOf, perform_ask, perform_ask, perform_ask_amount,
    horders, perform_balance, hwithdrawals]
  cases s.balance? user <;> rfl

/-- A user who has the same in two stores is shown the same. -/
theorem overview_same (x : Surroundings ω) {user : UserId} {s t : Store} (w v : ω)
    (hs : s.Keyed) (ht : t.Keyed) (h : s.SameFor user t) :
    overview x user s w = overview x user t v := by
  rw [overview_eq, overview_eq, Store.orders_of_eq hs ht h.orders, Store.balance?, Store.balance?,
    Store.withdrawalsOf, Store.withdrawalsOf, h.entries]

/-! ## What others do -/

/-- The request is not of the user: a visitor registers or logs in, another user sends a number, or
the pipeline moves an order that is not the user's. -/
def Request.IsForeign (s : Store) (user : UserId) : Request → Prop
  | .register _ | .login _ => True
  | .submit other _ | .withdraw other _ _ => other ≠ user
  | .transition number _ _ _ => ∀ order, s.order? number = some order → order.owner ≠ user

/-- A registration makes no difference to those who are registered. -/
theorem Enrolled.same_for {x : Surroundings ω} {s t : Store} {w : ω} {c : Credentials}
    {user : UserId} {result : Except (Failure ServiceError) String}
    (h : Enrolled x s w c result t) : s.SameFor user t := by
  cases h with
  | refused => exact .refl s
  | enrolled => exact ⟨fun _ _ => Iff.rfl, rfl⟩

/-- An upload of somebody else makes no difference. -/
theorem Submitted.same_for {s t : Store} {other user : UserId} {text : String}
    {result : Except (Failure ServiceError) (Scheduling Submission)}
    (h : Submitted s other text result t) (hother : other ≠ user) : s.SameFor user t := by
  cases h with
  | failed | known => exact .refl s
  | accepted => exact Store.same_for_upload hother

/-- A withdrawal of somebody else makes no difference. -/
theorem Withdrawn.same_for {s t : Store} {other user : UserId}
    {result : Except (Failure ServiceError) (Scheduling LedgerEntry)}
    (h : Withdrawn s other result t) (hother : other ≠ user) : s.SameFor user t := by
  cases h with
  | failed => exact .refl s
  | debited withdrawal now receipt t huser heffect =>
      have hentry : ∀ e ∈ [withdrawal.toEntry now], e.user ≠ user := by
        intro e he
        obtain rfl := List.mem_singleton.mp he
        exact huser.trans_ne hother
      cases heffect with
      | nothing => exact .refl s
      | debit => exact Store.same_for_entries hentry
      | anchor =>
          have hnew : (Order.upload withdrawal.order withdrawal.user now).owner ≠ user :=
            huser.trans_ne hother
          exact (Store.same_for_upload hnew).trans (Store.same_for_entries hentry)

/-- Whatever others ask for, a user has the same as before. -/
theorem visit_same_for (x : Surroundings ω) {user : UserId} {s : Store} (w : ω) (hkeyed : s.Keyed)
    {request : Request} (hforeign : request.IsForeign s user) :
    s.SameFor user (visit x request s w).store := by
  cases request with
  | register c =>
      rw [visit_register, Outcome.map_store]
      exact (enrol_effect x s w c).same_for
  | login c =>
      rw [visit_login, Outcome.map_store, reads_login x c s w]
      exact .refl s
  | submit other text =>
      rw [visit_submit, Outcome.map_store]
      exact (submit_effect x s w other text).same_for hforeign
  | withdraw other text amount =>
      rw [visit_withdraw, Outcome.map_store]
      exact (withdraw_effect x s w other text amount).same_for hforeign
  | transition number source target accrual =>
      rw [visit_transition, Outcome.map_store]
      rcases Store.transition_cases s number source target accrual (x.clock.run w).1 with
        ⟨_, _, heq⟩ | ⟨_, _, heq⟩ | ⟨_, _, _, _, heq⟩ | ⟨order, _, hfound, _, heq⟩
      · rw [heq]; exact .refl s
      · rw [heq]; exact .refl s
      · rw [heq]; exact .refl s
      · rw [heq]
        have hother := hforeign order hfound
        obtain rfl := Store.number_of_lookup hfound
        exact Store.same_for_settle hkeyed hfound hother

/-- A user is shown the same in all stores that hold the same orders and entries of that user, and
whatever others ask for makes no difference to what the user is shown. -/
theorem users_isolated (x : Surroundings ω) (user : UserId) {s : Store} (hs : s.Reachable) :
    (∀ (t : Store) (w v : ω), t.Reachable → s.SameFor user t →
      overview x user s w = overview x user t v) ∧
    ∀ (request : Request) (w v later : ω), request.IsForeign s user →
      overview x user (visit x request s w).store later = overview x user s v := by
  refine ⟨fun t w v ht hsame => overview_same x w v hs.keyed ht.keyed hsame, ?_⟩
  intro request w v later hforeign
  have hkeyed : (visit x request s w).store.Keyed :=
    (visit_writes x s w request).keep Store.Write.keyed hs.keyed
  exact (overview_same x v later hs.keyed hkeyed
    (visit_same_for x w hs.keyed hforeign)).symm

/-- Two users with an order each, listed with the later one first. The second user is shown what
would be shown without the first, also after the first has sent the second's number. -/
theorem users_isolated_two :
    let user : UserId := ⟨.ofNat 1⟩
    let other := Order.upload ⟨"18", rfl⟩ default default
    let own := Order.upload ⟨"26", rfl⟩ user default
    let s : Store := ⟨[], [], [own, other], []⟩
    overview .still user s 0 = overview .still user ⟨[], [], [own], []⟩ 0 ∧
      overview .still user (visit .still (.submit default "26") s 0).store 0 =
        overview .still user s 0 := by
  intro user other own s
  have hs : s.Reachable :=
    ⟨[.createOrder ⟨"18", rfl⟩ default default, .createOrder ⟨"26", rfl⟩ user default],
      .nil, .nil, .swap other own [], rfl⟩
  have ht : Store.Reachable ⟨[], [], [own], []⟩ :=
    ⟨[.createOrder ⟨"26", rfl⟩ user default], .nil, .nil, .refl _, rfl⟩
  have hsame : s.SameFor user ⟨[], [], [own], []⟩ := by
    refine ⟨fun order howner => ?_, rfl⟩
    have hne : order ≠ other := by
      rintro rfl
      exact absurd howner (by decide)
    simp [s, hne]
  obtain ⟨hshown, hkept⟩ := users_isolated .still user hs
  exact ⟨hshown _ 0 0 ht hsame, hkept (.submit default "26") 0 0 0 (by decide : default ≠ user)⟩

end Service

end Rewards
