import Rewards.Accrual.Client
import Rewards.Proofs.Ledger.Overflow
import Rewards.Proofs.Pipeline.Race
import Rewards.Proofs.Service.Effects
import Rewards.Text.Utf8

/-!
# Users whose balance cannot be computed

Any amount that fits a decimal can be credited, so the sums of a ledger can be too long. Then the
balance of the user cannot be computed any more: to ask for it and to withdraw from it both fail.
The main statement, `balance_overflows_iff`, says for which ledgers this is so, over all uploads,
withdrawals and attempts on orders. `balance_overflows_credits` is a race that gets there with two
answers of the accrual system.
-/

namespace Rewards

open InMemory (perform)

/-- A withdrawal is abandoned exactly if the user has no balance. -/
theorem Store.withdraw_overflows_iff (s : Store) (w : Withdrawal) (now : Instant) :
    s.withdraw w now = .error .overflow ↔ s.balance? w.user = none := by
  rcases withdraw_cases s w now with ⟨hnone, heq⟩ | ⟨_, hbalance, _, heq⟩ |
    ⟨_, _, hbalance, _, _, _, heq⟩ | ⟨_, _, _, hbalance, _, _, heq⟩
  · simp [hnone, heq]
  all_goals simp [hbalance, heq]

namespace Service

open Balance (Overlong values)
open Pipeline (AccrualReply Race)

variable {ω : Type}

/-- After any events, every debit is covered by the balance before it. -/
theorem covered_after (events : List Race.Event) (user : UserId) :
    Covered ((Race.after events).store.entriesOf user) :=
  Race.after_keeps (fun _ => Covered.nil) Store.Write.covered events user

/-- After any events, a user has no balance exactly if an entry of the user makes a sum that has no
value. -/
theorem no_balance_iff (events : List Race.Event) (user : UserId) :
    (Race.after events).store.balance? user = none ↔
      Overlong ((Race.after events).store.entriesOf user) := by
  have hsolvent := Race.after_keeps (fun _ => Solvent.nil) Store.Write.solvent events
  exact (covered_after events user).of_entries_eq_none_iff (hsolvent user)

/-- After any events, the balance of a user cannot be computed, and no withdrawal of the user be
checked, exactly if an entry of the user makes a sum that has no value. This does not happen while
all credits of the user stay below `2 ^ 96` by as much as the user has entries. -/
theorem balance_overflows_iff (x : Surroundings ω) (events : List Race.Event) (v : ω)
    (user : UserId) :
    let s := (Race.after events).store
    ((perform (x.service.store.balance user) s v).result = .error .overflow ↔
      Overlong (s.entriesOf user)) ∧
    (∀ w : Withdrawal, w.user = user →
      ((perform (x.service.store.withdraw w) s v).result = .error .overflow ↔
        Overlong (s.entriesOf user))) ∧
    (credits (values (s.entriesOf user)) + (s.entriesOf user).length ≤ 2 ^ 96 →
      ∃ b, (perform (x.service.store.balance user) s v).result = .ok b) := by
  intro s
  refine ⟨?_, ?_, ?_⟩
  · rw [← no_balance_iff, perform_balance]
    cases s.balance? user <;> simp
  · rintro w rfl
    rw [← no_balance_iff, perform_withdraw, ← s.withdraw_overflows_iff w (x.clock.run v).1]
    cases s.withdraw w (x.clock.run v).1 <;> simp [Outcome.committed]
  · intro hcredits
    have hsome : s.balance? user ≠ none :=
      mt (no_balance_iff events user).mp ((covered_after events user).not_overlong hcredits)
    obtain ⟨b, hb⟩ := Option.ne_none_iff_exists'.mp hsome
    exact ⟨b, by rw [perform_balance, hb]⟩

/-- The reply to an order for which the accrual system grants more than half of what fits a
decimal. -/
def largeReply (number : OrderNumber) : AccrualReply :=
  Accrual.outcomeOf (some ⟨200, [], some (Text.utf8
    ("\x7b\"order\":\"" ++ number.text ++ "\",\"status\":\"PROCESSED\",\"accrual\":5e28\x7d"))⟩)

/-- The default user uploads an order, and an attempt on it hears such a reply. -/
def largeCredit (id : Nat) (number : OrderNumber) : List Race.Event :=
  [.call (.createOrder number default default), .start number, .act id (.step default),
    .act id (.step default), .act id (.hear (largeReply number)), .act id (.step default)]

/-- One such credit fits a decimal: the user has a balance and can withdraw from it. -/
theorem balance_overflows_iff_once :
    let s := (Race.after (largeCredit 0 ⟨"125", rfl⟩)).store
    let w : Withdrawal :=
      ⟨⟨"34", rfl⟩, default, ⟨1, 0, by decide, by decide⟩, by decide, by decide +kernel⟩
    (∃ b, (perform (Surroundings.still.service.store.balance default) s 0).result = .ok b) ∧
      (perform (Surroundings.still.service.store.withdraw w) s 0).result ≠ .error .overflow := by
  intro s w
  obtain ⟨hbalance, hwithdraw, hsome⟩ :=
    balance_overflows_iff .still (largeCredit 0 ⟨"125", rfl⟩) 0 default
  obtain ⟨b, hb⟩ := hsome (by decide +kernel)
  refine ⟨⟨b, hb⟩, fun hoverflow => ?_⟩
  have hnone := hbalance.mpr ((hwithdraw w rfl).mp hoverflow)
  cases hb.symm.trans hnone

/-- The sum of two such credits does not fit: the user has no balance any more and cannot
withdraw. -/
theorem balance_overflows_credits :
    let s := (Race.after (largeCredit 0 ⟨"125", rfl⟩ ++ largeCredit 1 ⟨"18", rfl⟩)).store
    let large : Decimal := ⟨50000000000000000000000000000, 0, by decide, by decide⟩
    let w : Withdrawal :=
      ⟨⟨"34", rfl⟩, default, ⟨1, 0, by decide, by decide⟩, by decide, by decide +kernel⟩
    (s.entriesOf default).map (·.amount) = [large, large] ∧
      (perform (Surroundings.still.service.store.balance default) s 0).result =
        .error .overflow ∧
      (perform (Surroundings.still.service.store.withdraw w) s 0).result = .error .overflow := by
  decide +kernel

end Service

end Rewards
