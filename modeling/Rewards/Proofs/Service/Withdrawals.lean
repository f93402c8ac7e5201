import Rewards.Proofs.Decimal.Value
import Rewards.Proofs.Service.Effects

/-!
# Withdrawals, all or nothing

A withdrawal is checked against the balance of its user and against the owner of its order, and in
place it writes only when both checks have passed. `AllOrNothing` says for which balances and owners
it fails in which way, and what is written otherwise. The main statement, `withdraw_all_or_nothing`,
is that this holds on every store. If the balance cannot be computed, the withdrawal is abandoned
and writes nothing either.
-/

namespace Rewards

namespace Store

variable {s : Store} {w : Withdrawal} {now : Instant} {b : Balance}

/-- The number is stored for somebody else. -/
def IsForeign (s : Store) (number : OrderNumber) (user : UserId) : Prop :=
  ∃ order, s.order? number = some order ∧ order.owner ≠ user

/-- What a withdrawal writes: one entry behind the others, which the receipt describes, and the
order that it counts against, if the number is new. Nothing else changes. -/
structure Debited (s : Store) (w : Withdrawal) (now : Instant) (receipt : WithdrawalReceipt)
    (t : Store) : Prop where
  entry : receipt.entry = ⟨w.order, w.user, w.amount.neg, now⟩
  entries : t.entries = s.entries ++ [receipt.entry]
  anchor :
    (s.order? w.order = none ∧ receipt.anchor = .created (Order.upload w.order w.user now) ∧
      t.orders = s.orders ++ [Order.upload w.order w.user now]) ∨
    (∃ order, s.order? w.order = some order ∧ order.owner = w.user ∧
      receipt.anchor = .alreadyOwned order ∧ t.orders = s.orders)
  users : t.users = s.users
  logins : t.logins = s.logins

/-- With a balance, a withdrawal is not covered, names the order of somebody else, or is debited. -/
theorem withdraw_cases_of_balance (hbalance : s.balance? w.user = some b) (now : Instant) :
    (b.current.value < w.amount.value ∧
      s.withdraw w now = .error (.refused (.withdrawal (.insufficientFunds w.amount b.current)))) ∨
    (w.amount.value ≤ b.current.value ∧ s.IsForeign w.order w.user ∧
      s.withdraw w now = .error (.refused (.orderOwnedByAnotherUser w.order))) ∨
    (w.amount.value ≤ b.current.value ∧ ¬ s.IsForeign w.order w.user ∧
      ∃ receipt t, s.withdraw w now = .ok (receipt, t) ∧ s.Debited w now receipt t) := by
  have hsame {other : Balance} (hother : s.balance? w.user = some other) : other = b :=
    Option.some.inj (hother.symm.trans hbalance)
  have hcovered (h : b.current.lt w.amount = false) : w.amount.value ≤ b.current.value := by
    rw [← not_lt, ← Decimal.lt_iff_value, h]
    exact Bool.false_ne_true
  rcases withdraw_cases s w now with ⟨hnone, _⟩ | ⟨other, hother, hlt, heq⟩ |
    ⟨other, order, hother, hlt, hfound, howner, heq⟩ | ⟨other, anchor, t, hother, hlt, hcreate, heq⟩
  · rw [hbalance] at hnone
    cases hnone
  · obtain rfl := hsame hother
    exact .inl ⟨(Decimal.lt_iff_value _ _).mp hlt, heq⟩
  · obtain rfl := hsame hother
    exact .inr (.inl ⟨hcovered hlt, ⟨order, hfound, howner⟩, heq⟩)
  · obtain rfl := hsame hother
    refine .inr (.inr ⟨hcovered hlt, ?_, _, _, heq, ?_⟩)
    · rintro ⟨order, hfound, howner⟩
      rw [create_order_refused hfound howner] at hcreate
      cases hcreate
    · rcases create_order_cases s w.order w.user now with
        ⟨order, hfound, howner, hresult⟩ | ⟨order, hfound, howner, hresult⟩ | ⟨hfound, hresult⟩
      · rw [hcreate] at hresult
        cases hresult
        exact ⟨rfl, rfl, .inr ⟨order, hfound, howner, rfl, rfl⟩, rfl, rfl⟩
      · rw [hcreate] at hresult
        cases hresult
      · rw [hcreate] at hresult
        cases hresult
        exact ⟨rfl, rfl, .inl ⟨hfound, rfl, rfl⟩, rfl, rfl⟩

end Store

namespace Service

open InMemory

variable {ω : Type}

/-- What a withdrawal comes to when its user has this balance. It fails for want of funds exactly if
the balance is less than the amount, and reports both. Otherwise it fails exactly if the number is
stored for somebody else. A failure writes nothing, and a success writes what the receipt says. -/
structure AllOrNothing (s : Store) (w : Withdrawal) (now : Instant) (b : Balance)
    (outcome : Outcome ω (Except (Failure StoreError) WithdrawalReceipt)) : Prop where
  insufficient : ∀ requested available,
    outcome.result =
        .error (.refused (.withdrawal (.insufficientFunds requested available))) ↔
      b.current.value < w.amount.value ∧ requested = w.amount ∧ available = b.current
  foreign : ∀ number,
    outcome.result = .error (.refused (.orderOwnedByAnotherUser number)) ↔
      w.amount.value ≤ b.current.value ∧ s.IsForeign w.order w.user ∧ number = w.order
  succeeds : (∃ receipt, outcome.result = .ok receipt) ↔
    w.amount.value ≤ b.current.value ∧ ¬ s.IsForeign w.order w.user
  nothing : ∀ failure, outcome.result = .error failure → outcome.store = s
  all : ∀ receipt, outcome.result = .ok receipt → s.Debited w now receipt outcome.store

/-- On every store, a withdrawal of a user whose balance can be computed is all or nothing, and one
of a user whose balance cannot be computed writes nothing. -/
theorem withdraw_all_or_nothing (x : Surroundings ω) (s : Store) (v : ω) (w : Withdrawal) :
    (s.balance? w.user = none →
      (perform (x.service.store.withdraw w) s v).result = .error .overflow ∧
      (perform (x.service.store.withdraw w) s v).store = s) ∧
    (∀ b, s.balance? w.user = some b →
      AllOrNothing s w (x.clock.run v).1 b (perform (x.service.store.withdraw w) s v)) := by
  have hspared (failure : Failure StoreError) :
      (perform (x.service.store.withdraw w) s v).result = .error failure →
        (perform (x.service.store.withdraw w) s v).store = s :=
    Storage.withdraw_atomic w (x.clock.run v).1 s failure
  rw [perform_withdraw] at hspared ⊢
  constructor
  · intro hnone
    have hoverflow : s.withdraw w (x.clock.run v).1 = .error .overflow := by
      rw [Store.withdraw, hnone]
    rw [hoverflow] at hspared ⊢
    exact ⟨rfl, hspared _ rfl⟩
  intro b hbalance
  rcases Store.withdraw_cases_of_balance hbalance (x.clock.run v).1 with
    ⟨hless, heq⟩ | ⟨hcovered, hforeign, heq⟩ | ⟨hcovered, hown, receipt, t, heq, hdebited⟩
  · rw [heq] at hspared ⊢
    refine ⟨fun requested available => ?_, fun number => ?_, ?_, hspared, ?_⟩
    · simp [Outcome.committed, hless, eq_comm]
    · simp [Outcome.committed, hless.not_ge]
    · simp [Outcome.committed, hless.not_ge]
    · rintro receipt ⟨⟩
  · rw [heq] at hspared ⊢
    refine ⟨fun requested available => ?_, fun number => ?_, ?_, hspared, ?_⟩
    · simp [Outcome.committed, hcovered.not_gt]
    · simp [Outcome.committed, hcovered, hforeign, eq_comm]
    · simp [Outcome.committed, hforeign]
    · rintro receipt ⟨⟩
  · rw [heq] at hspared ⊢
    refine ⟨fun requested available => ?_, fun number => ?_, ?_, hspared, ?_⟩
    · simp [Outcome.committed, hcovered.not_gt]
    · simp [Outcome.committed, hown]
    · simp [Outcome.committed, hcovered, hown]
    · rintro other ⟨⟩
      exact hdebited

/-- Of a balance of 5 the user can withdraw 3 for a new number, but not 6, and nothing for the order
of somebody else. -/
theorem withdraw_all_or_nothing_funded :
    let five : Decimal := ⟨5, 0, by decide, by decide⟩
    let six : Decimal := ⟨6, 0, by decide, by decide⟩
    let foreign := Order.upload ⟨"26", rfl⟩ ⟨.ofNat 1⟩ default
    let funded : Store := ⟨[], [], [⟨⟨"18", rfl⟩, default, .processed, five, default⟩, foreign],
      [⟨⟨"18", rfl⟩, default, five, default⟩]⟩
    let less (order : OrderNumber) : Withdrawal :=
      ⟨order, default, ⟨3, 0, by decide, by decide⟩, by decide, by decide +kernel⟩
    let more (order : OrderNumber) : Withdrawal :=
      ⟨order, default, six, by decide, by decide +kernel⟩
    (∃ receipt, (perform (Surroundings.still.service.store.withdraw (less ⟨"34", rfl⟩))
      funded 0).result = .ok receipt) ∧
    (perform (Surroundings.still.service.store.withdraw (more ⟨"34", rfl⟩)) funded 0).result =
      .error (.refused (.withdrawal (.insufficientFunds six five))) ∧
    (perform (Surroundings.still.service.store.withdraw (less ⟨"26", rfl⟩)) funded 0).result =
      .error (.refused (.orderOwnedByAnotherUser ⟨"26", rfl⟩)) := by
  intro five six foreign funded less more
  obtain ⟨hbalance, hcovered, hmissing, hnone, hfound, howner⟩ :
      funded.balance? default = some ⟨five, .zero⟩ ∧
        (less ⟨"34", rfl⟩).amount.value ≤ five.value ∧ five.value < six.value ∧
        funded.order? ⟨"34", rfl⟩ = none ∧ funded.order? ⟨"26", rfl⟩ = some foreign ∧
        foreign.owner ≠ default := by
    decide +kernel +revert
  have hnew := (withdraw_all_or_nothing .still funded 0 (less ⟨"34", rfl⟩)).2 _ hbalance
  have hmore := (withdraw_all_or_nothing .still funded 0 (more ⟨"34", rfl⟩)).2 _ hbalance
  have hother := (withdraw_all_or_nothing .still funded 0 (less ⟨"26", rfl⟩)).2 _ hbalance
  refine ⟨hnew.succeeds.mpr ⟨hcovered, ?_⟩, (hmore.insufficient _ _).mpr ⟨hmissing, rfl, rfl⟩,
    (hother.foreign _).mpr ⟨hcovered, ⟨foreign, hfound, howner⟩, rfl⟩⟩
  rintro ⟨order, horder, _⟩
  cases horder.symm.trans hnone

end Service

end Rewards
