import Rewards.Proofs.Decimal.Value
import Rewards.Proofs.Store.Calls

/-!
# No overdraft

A withdrawal is checked against the balance at the time of the withdrawal, and entries that come
later stand behind it. So every prefix of a user's entries has a balance that is not negative, if
its sums fit at all. The main statement, `balance_not_negative`, holds for sums that are rounded as
well as for exact ones: it needs only that rounding keeps the sign.
-/

namespace Rewards

/-! ## The sign of a balance -/

namespace Balance

/-- The balance with one more entry is the balance before it, moved. -/
theorem of_entries_concat (entries : List LedgerEntry) (e : LedgerEntry) :
    ofEntries? (entries ++ [e]) = (ofEntries? entries).bind (·.move? e.amount) := by
  unfold ofEntries? ofAmounts?
  rw [List.map_append, List.foldlM_append]
  simp only [List.map_cons, List.map_nil, List.foldlM_cons, List.foldlM_nil, bind_pure]
  rfl

/-- A movement adds its amount to what the user has, and a debit adds it to what has been
withdrawn. -/
theorem move_eq_some {b moved : Balance} {amount : Decimal} (h : b.move? amount = some moved) :
    b.current.add? amount = some moved.current ∧
    ((amount.isNegative = true ∧ b.withdrawn.add? amount.abs = some moved.withdrawn) ∨
      (amount.isNegative = false ∧ moved.withdrawn = b.withdrawn)) := by
  simp only [move?, bind, Option.bind_eq_some_iff] at h
  obtain ⟨current, hcurrent, h⟩ := h
  split at h
  · rename_i hnegative
    simp only [Option.bind_eq_some_iff] at h
    obtain ⟨withdrawn, hsum, h⟩ := h
    cases h
    exact ⟨hcurrent, .inl ⟨hnegative, hsum⟩⟩
  · rename_i hnegative
    cases h
    exact ⟨hcurrent, .inr ⟨Bool.not_eq_true _ ▸ hnegative, rfl⟩⟩

/-- A movement that the balance covers leaves it not negative. -/
theorem move_current_nonneg {b moved : Balance} {amount : Decimal}
    (h : b.move? amount = some moved) (hcover : 0 ≤ b.current.value + amount.value) :
    0 ≤ moved.current.value :=
  Decimal.add_nonneg (move_eq_some h).1 hcover

/-- What has been withdrawn never becomes negative. -/
theorem move_withdrawn_nonneg {b moved : Balance} {amount : Decimal}
    (h : b.move? amount = some moved) (hwithdrawn : 0 ≤ b.withdrawn.value) :
    0 ≤ moved.withdrawn.value := by
  rcases (move_eq_some h).2 with ⟨_, hsum⟩ | ⟨_, heq⟩
  · refine Decimal.add_nonneg hsum ?_
    rw [Decimal.value_abs]
    exact add_nonneg hwithdrawn (abs_nonneg _)
  · rw [heq]
    exact hwithdrawn

end Balance

/-! ## Entries without an overdraft -/

/-- No prefix of the entries has a negative balance. A prefix whose sums do not fit has none. -/
def Solvent (entries : List LedgerEntry) : Prop :=
  ∀ (count : Nat) (b : Balance), Balance.ofEntries? (entries.take count) = some b →
    0 ≤ b.current.value ∧ 0 ≤ b.withdrawn.value

namespace Solvent

/-- No entries, no overdraft. -/
theorem nil : Solvent [] := by
  intro count b h
  rw [List.take_nil] at h
  cases h
  simp [Balance.zero]

/-- All entries together are a prefix. -/
theorem balance {entries : List LedgerEntry} (h : Solvent entries) {b : Balance}
    (hb : Balance.ofEntries? entries = some b) : 0 ≤ b.current.value ∧ 0 ≤ b.withdrawn.value :=
  h entries.length b (by rwa [List.take_length])

/-- One more entry makes no overdraft if the balance before it covers it. -/
theorem concat {entries : List LedgerEntry} (h : Solvent entries) {e : LedgerEntry}
    (hcover : ∀ b, Balance.ofEntries? entries = some b → 0 ≤ b.current.value + e.amount.value) :
    Solvent (entries ++ [e]) := by
  intro count b hb
  -- A prefix that ends before the new entry is one of the old entries.
  by_cases hcount : count ≤ entries.length
  · rw [List.take_append_of_le_length hcount] at hb
    exact h count b hb
  · rw [List.take_of_length_le (by simp; omega), Balance.of_entries_concat] at hb
    obtain ⟨before, hbefore, hmove⟩ := Option.bind_eq_some_iff.mp hb
    exact ⟨Balance.move_current_nonneg hmove (hcover before hbefore),
      Balance.move_withdrawn_nonneg hmove (h.balance hbefore).2⟩

/-- A credit makes no overdraft. -/
theorem credit {entries : List LedgerEntry} (h : Solvent entries) {e : LedgerEntry}
    (hpositive : e.amount.isPositive = true) : Solvent (entries ++ [e]) := by
  refine h.concat fun b hb => ?_
  exact add_nonneg (h.balance hb).1 ((Decimal.is_positive_iff _).mp hpositive).le

/-- A debit that the balance covers makes no overdraft. -/
theorem debit {entries : List LedgerEntry} (h : Solvent entries) {e : LedgerEntry} {b : Balance}
    (hbalance : Balance.ofEntries? entries = some b)
    (hcover : 0 ≤ b.current.value + e.amount.value) : Solvent (entries ++ [e]) := by
  refine h.concat fun before hbefore => ?_
  obtain rfl : before = b := Option.some.inj (hbefore.symm.trans hbalance)
  exact hcover

end Solvent

/-! ## Ledgers without an overdraft -/

namespace Store

/-- An entry that is written is a credit, or a debit that the balance before it covers. -/
inductive Movement (s : Store) (e : LedgerEntry) : Prop where
  | credit : e.amount.isPositive = true → Movement s e
  | debit (b : Balance) :
      s.balance? e.user = some b → e.amount.isNegative = true →
      0 ≤ b.current.value + e.amount.value → Movement s e

/-- The amount of a withdrawal that the funds cover leaves them not negative. -/
theorem covered_of_funds {w : Withdrawal} {current : Decimal}
    (hfunds : w.checkFunds current = .ok ()) : 0 ≤ current.value + w.amount.neg.value := by
  unfold Withdrawal.checkFunds at hfunds
  split at hfunds
  · cases hfunds
  · rename_i hlt
    rw [Decimal.lt_iff_value, not_lt] at hlt
    rw [Decimal.value_neg]
    exact le_add_neg_iff_le.mpr hlt

/-- A write adds one entry at most, and to the entries of its user only. -/
theorem Write.entries_cases {s t : Store} (h : Write s t) (user : UserId) :
    t.entriesOf user = s.entriesOf user ∨
    ∃ e, e.user = user ∧ s.Movement e ∧ t.entriesOf user = s.entriesOf user ++ [e] := by
  have hone (e : LedgerEntry) (hmovement : s.Movement e) :
      s.entriesOf user ++ [e].filter (·.user == user) = s.entriesOf user ∨
      ∃ other, other.user = user ∧ s.Movement other ∧
        s.entriesOf user ++ [e].filter (·.user == user) = s.entriesOf user ++ [other] := by
    by_cases huser : e.user = user
    · exact .inr ⟨e, huser, hmovement, by simp [huser]⟩
    · exact .inl (by simp [huser])
  cases h with
  | register | upload => exact .inl rfl
  | advance order target accrual now hfound hallowed =>
      show Store.entriesOf { s with entries := s.entries ++ _ } user = _ ∨ ∃ e, _ ∧ _ ∧
        Store.entriesOf { s with entries := s.entries ++ _ } user = _
      rw [entries_of_append]
      unfold creditFor
      split
      · rename_i hcredit
        exact hone _ (.credit hcredit.2)
      · exact .inl (List.append_nil _)
  | debit w now b anchor hbalance hfunds =>
      rw [entries_of_append]
      refine hone _ (.debit b hbalance ?_ (covered_of_funds hfunds))
      have hpositive := (Decimal.is_positive_iff _).mp w.isPositive
      rw [Decimal.is_negative_iff]
      simpa [Withdrawal.toEntry] using hpositive

/-- Every write keeps all users solvent. -/
theorem Write.solvent {s t : Store} (h : Write s t) (hs : ∀ user, Solvent (s.entriesOf user)) :
    ∀ user, Solvent (t.entriesOf user) := by
  intro user
  rcases h.entries_cases user with hsame | ⟨e, rfl, hmovement, hadded⟩
  · rw [hsame]
    exact hs user
  · rw [hadded]
    cases hmovement with
    | credit hpositive => exact (hs _).credit hpositive
    | debit b hbalance _ hcover => exact (hs _).debit hbalance hcover

/-- Whatever calls are made, no prefix of a user's entries has a balance or a withdrawn sum below
nothing. -/
theorem balance_not_negative (calls : List Call) (user : UserId) (count : Nat) (b : Balance)
    (h : Balance.ofEntries? (((after calls).entriesOf user).take count) = some b) :
    Decimal.zero.le b.current = true ∧ Decimal.zero.le b.withdrawn = true := by
  have hsolvent : ∀ user, Solvent ((after calls).entriesOf user) :=
    after_keeps (fun _ => Solvent.nil) Write.solvent calls
  obtain ⟨hcurrent, hwithdrawn⟩ := hsolvent user count b h
  rw [Decimal.le_iff_value, Decimal.le_iff_value, Decimal.value_zero]
  exact ⟨hcurrent, hwithdrawn⟩

/-- The amount that `roundedCalls` ends up with: the sum of its credits, rounded to a whole number
because it has more than 96 bits. The exact sum is a little less. -/
def roundedSum : Decimal := ⟨7922816251426433759354395034, 0, by decide, Decimal.zero.scale_le⟩

/-- Two orders of a user earn 7922816251426433759354395033.5 and 0.05. The user withdraws the
rounded sum, and is then refused a withdrawal of 0.05. -/
def roundedCalls : List Call :=
  let first : OrderNumber := ⟨"18", rfl⟩
  let second : OrderNumber := ⟨"26", rfl⟩
  [ .createOrder first default default,
    .transition first .new .processing none default,
    .transition first .processing .processed
      (some ⟨79228162514264337593543950335, 1, by decide, by decide⟩) default,
    .createOrder second default default,
    .transition second .new .processing none default,
    .transition second .processing .processed (some ⟨5, 2, by decide, by decide⟩) default,
    .withdraw ⟨first, default, roundedSum, by decide, by decide +kernel⟩ default,
    .withdraw ⟨second, default, ⟨5, 2, by decide, by decide⟩, by decide, by decide +kernel⟩ default ]

/-- Withdrawing all of a sum that has been rounded up leaves nothing. -/
theorem balance_not_negative_rounded :
    Balance.ofEntries? (((after roundedCalls).entriesOf default).take 3) =
        some ⟨.zero, roundedSum⟩ ∧
      Decimal.zero.le .zero = true ∧ Decimal.zero.le roundedSum = true := by
  have hfold : Balance.ofEntries? (((after roundedCalls).entriesOf default).take 3) =
      some ⟨.zero, roundedSum⟩ := by decide +kernel
  exact ⟨hfold, balance_not_negative roundedCalls default 3 _ hfold⟩

end Store

end Rewards
