import Rewards.Proofs.Decimal.Value
import Rewards.Proofs.Store.Calls
import Rewards.Proofs.Store.LifeCycle

/-!
# Ledger and orders agree

The credits of the ledger and the processed orders with an accrual are two accounts of the same
thing. `Consistent` is what every write keeps of them. The main statement, `ledger_agrees`, adds
that the other entries are the debits of the withdrawals that went through, in their order.
-/

namespace Rewards.Store

/-- The credits in the ledger that name an order. -/
def creditsOf (s : Store) (number : OrderNumber) : List LedgerEntry :=
  s.entries.filter fun e => e.amount.isPositive && e.order == number

/-- The credit of an order. -/
def credit (order : Order) (now : Instant) : LedgerEntry :=
  ⟨order.number, order.owner, order.accrual, now⟩

/-- An order that earns something has just that one credit, every credit belongs to such an order,
no entry is about nothing, and every entry names an order of its user. -/
structure Consistent (s : Store) : Prop where
  keyed : s.Keyed
  credited : ∀ number order, s.order? number = some order → order.status = .processed →
    order.accrual.isPositive = true → ∃ now, s.creditsOf number = [credit order now]
  earned : ∀ e ∈ s.entries, e.amount.isPositive = true →
    ∃ order, s.order? e.order = some order ∧ order.status = .processed ∧
      order.accrual.isPositive = true
  signed : ∀ e ∈ s.entries, e.amount.isPositive = true ∨ e.isWithdrawal = true
  anchored : ∀ e ∈ s.entries, ∃ order, s.order? e.order = some order ∧ order.owner = e.user

/-! ## Entries that are added -/

/-- New entries add their credits behind the old ones. -/
theorem credits_of_append (s : Store) (entries : List LedgerEntry) (number : OrderNumber) :
    ({ s with entries := s.entries ++ entries } : Store).creditsOf number =
      s.creditsOf number ++ entries.filter fun e => e.amount.isPositive && e.order == number :=
  List.filter_append _ _

/-- A processed order with an accrual earns its credit. -/
theorem credit_for_eq {order : Order} (hprocessed : order.status = .processed)
    (haccrual : order.accrual.isPositive = true) (now : Instant) :
    creditFor order now = [credit order now] :=
  if_pos ⟨hprocessed, haccrual⟩

/-- A processed order earns a credit exactly if it has an accrual. -/
theorem credit_for_processed {order : Order} (hprocessed : order.status = .processed)
    (now : Instant) :
    creditFor order now = if order.accrual.isPositive = true then [credit order now] else [] := by
  by_cases haccrual : order.accrual.isPositive = true
  · rw [if_pos haccrual, credit_for_eq hprocessed haccrual]
  · rw [if_neg haccrual]
    exact if_neg fun h => haccrual h.2

/-- What an order earns is its credit, and only a processed order earns anything. -/
theorem of_mem_credit_for {order : Order} {now : Instant} {e : LedgerEntry}
    (h : e ∈ creditFor order now) :
    e = credit order now ∧ order.status = .processed ∧ order.accrual.isPositive = true := by
  unfold creditFor at h
  split at h
  · rename_i hcredit
    exact ⟨List.mem_singleton.mp h, hcredit⟩
  · cases h

/-- Settling an order adds what it earns behind the old entries. -/
theorem added_settle (s : Store) (order : Order) (now : Instant) :
    (s.settle order now).entries.drop s.entries.length = creditFor order now :=
  List.drop_left

/-- A settled order has the credits from before and the one that it earns now. -/
theorem credits_of_settle (s : Store) (order : Order) (now : Instant) (number : OrderNumber) :
    (s.settle order now).creditsOf number =
      s.creditsOf number ++ if order.number = number then creditFor order now else [] := by
  show Store.creditsOf { s with entries := s.entries ++ _ } number = _
  rw [credits_of_append]
  unfold creditFor
  by_cases hcredit : order.status = .processed ∧ order.accrual.isPositive = true
  · by_cases hnumber : order.number = number <;> simp [hcredit, hnumber]
  · simp [hcredit]

/-- The debit of a withdrawal is a negative amount. -/
theorem is_withdrawal_to_entry (w : Withdrawal) (now : Instant) :
    (w.toEntry now).isWithdrawal = true := by
  rw [LedgerEntry.isWithdrawal, Decimal.is_negative_iff]
  simpa [Withdrawal.toEntry] using (Decimal.is_positive_iff _).mp w.isPositive

/-- The debit of a withdrawal is no credit. -/
theorem is_positive_to_entry (w : Withdrawal) (now : Instant) :
    (w.toEntry now).amount.isPositive = false := by
  have hnegative := is_withdrawal_to_entry w now
  rw [Bool.eq_false_iff]
  intro hpositive
  rw [LedgerEntry.isWithdrawal,
    Decimal.is_negative_eq_false_of_is_positive hpositive] at hnegative
  cases hnegative

/-- A debit adds no credit. -/
theorem credits_of_debit (s : Store) (w : Withdrawal) (now : Instant) (number : OrderNumber) :
    ({ s with entries := s.entries ++ [w.toEntry now] } : Store).creditsOf number =
      s.creditsOf number := by
  rw [credits_of_append]
  simp [is_positive_to_entry]

/-! ## Writes -/

variable {s t : Store}

/-- A finished order keeps the credits that it has. -/
theorem Write.credits_of_finished (h : Write s t) {number : OrderNumber}
    (hfinished : s.Finished number) : t.creditsOf number = s.creditsOf number := by
  cases h with
  | register | upload => rfl
  | debit w now => exact credits_of_debit s w now number
  | advance order target accrual now hfound hallowed =>
      have hother : order.number ≠ number := by
        rintro rfl
        exact not_finished_of_allowed hfound hallowed hfinished
      rw [credits_of_settle, if_neg (show (moved order target accrual).number ≠ number from hother),
        List.append_nil]

/-- A finished order keeps its credits after any number of writes. -/
theorem Writes.credits_of_finished (h : Writes s t) {number : OrderNumber}
    (hfinished : s.Finished number) : t.creditsOf number = s.creditsOf number := by
  induction h with
  | refl => rfl
  | tail hwrites hwrite ih =>
      rw [hwrite.credits_of_finished (Writes.finished hwrites hfinished), ih]

/-- An order that has earned nothing has no credit. -/
theorem Consistent.credits_of_eq_nil (h : s.Consistent) {number : OrderNumber}
    (hearned : ∀ order, s.order? number = some order → order.status ≠ .processed) :
    s.creditsOf number = [] := by
  rw [creditsOf, List.filter_eq_nil_iff]
  rintro e he hcredit
  rw [Bool.and_eq_true, beq_iff_eq] at hcredit
  obtain ⟨order, hfound, hprocessed, _⟩ := h.earned e he hcredit.1
  exact hearned order (hcredit.2 ▸ hfound) hprocessed

/-- The order of an entry still belongs to the user of the entry after a write. -/
theorem Consistent.anchored_later (h : s.Consistent) (hwrite : Write s t) {e : LedgerEntry}
    (he : e ∈ s.entries) : ∃ order, t.order? e.order = some order ∧ order.owner = e.user := by
  obtain ⟨order, hfound, howner⟩ := h.anchored e he
  obtain ⟨later, hlater, hleads⟩ := hwrite.leads_to hfound
  exact ⟨later, hlater, hleads.owner.trans howner⟩

/-- A credit still belongs to an order that earned it after a write. -/
theorem Consistent.earned_later (h : s.Consistent) (hwrite : Write s t) {e : LedgerEntry}
    (he : e ∈ s.entries) (hpositive : e.amount.isPositive = true) :
    ∃ order, t.order? e.order = some order ∧ order.status = .processed ∧
      order.accrual.isPositive = true := by
  obtain ⟨order, hfound, hprocessed, haccrual⟩ := h.earned e he hpositive
  obtain ⟨later, hlater, hleads⟩ := hwrite.leads_to hfound
  obtain rfl := hleads.final (by rw [hprocessed]; rfl)
  exact ⟨later, hlater, hprocessed, haccrual⟩

/-- Storing a new order keeps ledger and orders consistent. -/
theorem Consistent.upload (h : s.Consistent) {number : OrderNumber} {owner : UserId}
    {uploadedAt : Instant} (hnew : s.order? number = none) :
    Consistent { s with orders := s.orders ++ [Order.upload number owner uploadedAt] } := by
  have hwrite := Write.upload (s := s) number owner uploadedAt hnew
  refine ⟨hwrite.keyed h.keyed, ?_, fun e he => h.earned_later hwrite he, h.signed,
    fun e he => h.anchored_later hwrite he⟩
  intro other order hfound hprocessed haccrual
  rw [lookup_append, Option.or_eq_some_iff] at hfound
  rcases hfound with hfound | ⟨_, hfound⟩
  · exact h.credited other order hfound hprocessed haccrual
  · split at hfound
    · cases hfound
      cases hprocessed
    · cases hfound

/-- Moving an order forward keeps ledger and orders consistent. -/
theorem Consistent.advance (h : s.Consistent) {order : Order} {target : OrderStatus}
    {accrual : Option Decimal} {now : Instant} (hfound : s.order? order.number = some order)
    (hallowed : Allowed order.status target accrual) :
    (s.settle (moved order target accrual) now).Consistent := by
  have hwrite := Write.advance order target accrual now hfound hallowed
  have hlater : (s.settle (moved order target accrual) now).order? order.number =
      some (moved order target accrual) := by
    rw [lookup_settle, hfound]
    simp [moved]
  refine ⟨hwrite.keyed h.keyed, ?_, ?_, ?_, ?_⟩
  · intro number found hlookup hprocessed haccrual
    rw [credits_of_settle]
    by_cases hnumber : number = order.number
    · -- The order was not processed before, so this is its first credit.
      subst hnumber
      have hfirst : s.creditsOf order.number = [] := by
        refine h.credits_of_eq_nil fun other hother hdone => ?_
        exact not_finished_of_allowed hfound hallowed ⟨other, hother, by rw [hdone]; rfl⟩
      rw [hlater] at hlookup
      cases hlookup
      have hsame : (moved order target accrual).number = order.number := rfl
      exact ⟨now, by rw [hfirst, if_pos hsame, credit_for_eq hprocessed haccrual, List.nil_append]⟩
    · rw [lookup_settle] at hlookup
      simp only [moved, hnumber, if_false, Option.map_id'] at hlookup
      obtain ⟨now, hcredits⟩ := h.credited number found hlookup hprocessed haccrual
      exact ⟨now, by simp [hcredits, moved, Ne.symm hnumber]⟩
  · intro e he hpositive
    rcases List.mem_append.mp he with he | he
    · exact h.earned_later hwrite he hpositive
    · obtain ⟨rfl, hprocessed, haccrual⟩ := of_mem_credit_for he
      exact ⟨_, hlater, hprocessed, haccrual⟩
  · intro e he
    rcases List.mem_append.mp he with he | he
    · exact h.signed e he
    · obtain ⟨rfl, _, haccrual⟩ := of_mem_credit_for he
      exact .inl haccrual
  · intro e he
    rcases List.mem_append.mp he with he | he
    · exact h.anchored_later hwrite he
    · obtain ⟨rfl, _, _⟩ := of_mem_credit_for he
      exact ⟨_, hlater, rfl⟩

/-- A debit keeps ledger and orders consistent. -/
theorem Consistent.debit (h : s.Consistent) {w : Withdrawal} {now : Instant} {anchor : Order}
    (hfound : s.order? w.order = some anchor) (howner : anchor.owner = w.user) :
    ({ s with entries := s.entries ++ [w.toEntry now] } : Store).Consistent := by
  refine ⟨h.keyed, ?_, ?_, ?_, ?_⟩
  · intro number order hlookup hprocessed haccrual
    rw [credits_of_debit]
    exact h.credited number order hlookup hprocessed haccrual
  · intro e he hpositive
    rcases List.mem_append.mp he with he | he
    · exact h.earned e he hpositive
    · cases List.mem_singleton.mp he
      rw [is_positive_to_entry] at hpositive
      cases hpositive
  · intro e he
    rcases List.mem_append.mp he with he | he
    · exact h.signed e he
    · cases List.mem_singleton.mp he
      exact .inr (is_withdrawal_to_entry w now)
  · intro e he
    rcases List.mem_append.mp he with he | he
    · exact h.anchored e he
    · cases List.mem_singleton.mp he
      exact ⟨anchor, hfound, howner⟩

/-- Every write keeps ledger and orders consistent. -/
theorem Write.consistent (h : Write s t) (hs : s.Consistent) : t.Consistent := by
  cases h with
  | register => exact ⟨hs.keyed, hs.credited, hs.earned, hs.signed, hs.anchored⟩
  | upload number owner uploadedAt hnew => exact hs.upload hnew
  | advance order target accrual now hfound hallowed => exact hs.advance hfound hallowed
  | debit w now balance anchor hbalance hfunds hfound howner => exact hs.debit hfound howner

/-- The empty store is consistent. -/
theorem consistent_empty : empty.Consistent where
  keyed := List.nodup_nil
  credited := by
    intro number order h
    cases h
  earned := by
    intro e he
    cases he
  signed := by
    intro e he
    cases he
  anchored := by
    intro e he
    cases he

/-! ## Calls -/

/-- The entries that take points away. -/
def debits (s : Store) : List LedgerEntry := s.entries.filter (·.isWithdrawal)

/-- Settling an order adds no debit. -/
theorem debits_settle (s : Store) (order : Order) (now : Instant) :
    (s.settle order now).debits = s.debits := by
  have hnone : (creditFor order now).filter (·.isWithdrawal) = [] := by
    rw [List.filter_eq_nil_iff]
    intro e he
    obtain ⟨rfl, _, haccrual⟩ := of_mem_credit_for he
    rw [LedgerEntry.isWithdrawal, credit,
      Decimal.is_negative_eq_false_of_is_positive haccrual]
    exact Bool.false_ne_true
  rw [debits, settle, List.filter_append, hnone, List.append_nil]
  rfl

/-- A call adds the debit of its reply, if there is one. -/
theorem Effect.debits {call : Call} {reply : Reply} (h : Effect s call reply t) :
    t.debits = s.debits ++ reply.debit?.toList := by
  cases h with
  | nothing call reply hnone => rw [hnone, Option.toList_none, List.append_nil]
  | register | upload => exact (List.append_nil _).symm
  | advance order target accrual now =>
      exact (debits_settle s _ now).trans (List.append_nil _).symm
  | debit w now | anchor w now =>
      show (s.entries ++ [w.toEntry now]).filter (·.isWithdrawal) = _
      rw [List.filter_append]
      simp only [List.filter_cons, is_withdrawal_to_entry, if_true, List.filter_nil]
      rfl

/-- After any calls, the debits are those of the replies, in their order. -/
theorem debits_after (calls : List Call) :
    (after calls).debits = (replies calls).filterMap Reply.debit? := by
  induction calls using List.reverseRecOn with
  | nil => rfl
  | append_singleton calls call ih =>
      rw [after_concat, replies_concat, (perform_effect call _).debits, ih,
        List.filterMap_append]
      congr 1

/-- After any calls, an order that is processed with a positive accrual has one credit, which is
its owner's and of its accrual. There is no other credit and no entry about nothing. The other
entries are the debits that the successful withdrawals returned, one for one and in their order.
Each entry names a stored order of its user. -/
theorem ledger_agrees (calls : List Call) :
    (∀ order ∈ (after calls).orders, order.status = .processed →
      order.accrual.isPositive = true →
      ∃ now, (after calls).creditsOf order.number = [credit order now]) ∧
    (∀ e ∈ (after calls).entries, e.amount.isPositive = true →
      ∃ order ∈ (after calls).orders, order.number = e.order ∧ order.status = .processed ∧
        order.accrual.isPositive = true) ∧
    (∀ e ∈ (after calls).entries, e.amount.isPositive = true ∨ e.isWithdrawal = true) ∧
    (after calls).debits = (replies calls).filterMap Reply.debit? ∧
    (∀ e ∈ (after calls).entries, ∃ order, (after calls).order? e.order = some order ∧
      order.owner = e.user) := by
  have h : (after calls).Consistent := after_keeps consistent_empty Write.consistent calls
  refine ⟨?_, ?_, h.signed, debits_after calls, h.anchored⟩
  · intro order horder hprocessed haccrual
    exact h.credited order.number order (h.keyed.lookup_of_mem horder) hprocessed haccrual
  · intro e he hpositive
    obtain ⟨order, hfound, hprocessed, haccrual⟩ := h.earned e he hpositive
    exact ⟨order, mem_of_lookup hfound, number_of_lookup hfound, hprocessed, haccrual⟩

end Rewards.Store
