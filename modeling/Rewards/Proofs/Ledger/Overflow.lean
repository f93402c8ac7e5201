import Rewards.Proofs.Ledger.Exactness

/-!
# Balances that cannot be computed

A balance is a fold of sums, and a sum of more than 96 bits without a fraction has no value. Which
sums these are is read off the ledger: a credit of a solvent user can only be too much for what the
user has, and a debit that was covered can only be too much for what has been withdrawn. The
statement `Covered.of_entries_eq_none_iff` says so, and `Covered.not_overlong` that it does not
happen to a user whose credits stay below `2 ^ 96` by as much as there are entries.
-/

namespace Rewards

namespace Balance

/-- The first value that is rounded to a whole number of more than 96 bits. -/
def limit : ℚ := 2 ^ 96 - 1 / 2

/-- The movement makes a sum that has no value: with what has been withdrawn if it is a debit, and
with what the user has otherwise. -/
def Overflows (b : Balance) (amount : Decimal) : Prop :=
  if amount.value < 0 then limit ≤ b.withdrawn.value + |amount.value|
  else limit ≤ b.current.value + amount.value

/-- One of the entries makes a sum that has no value. -/
def Overlong (entries : List LedgerEntry) : Prop :=
  ∃ earlier e later b, entries = earlier ++ e :: later ∧ ofEntries? earlier = some b ∧
    b.Overflows e.amount

/-! ## Movements without a balance -/

/-- An entry of a list is the last one, or stands in the list without the last one. -/
theorem cut_of_concat {entries earlier later : List LedgerEntry} {last e : LedgerEntry}
    (h : entries ++ [last] = earlier ++ e :: later) :
    (earlier = entries ∧ e = last) ∨ ∃ rest, entries = earlier ++ e :: rest := by
  rcases List.eq_nil_or_concat' later with rfl | ⟨rest, other, rfl⟩
  · obtain ⟨rfl, hlast⟩ := List.append_inj' h rfl
    exact .inl ⟨rfl, (List.cons.inj hlast).1.symm⟩
  · rw [← List.cons_append, ← List.append_assoc] at h
    exact .inr ⟨rest, (List.append_inj' h rfl).1⟩

/-- There is no balance after a movement if one of its sums has no value. -/
theorem move_eq_none_iff (b : Balance) (amount : Decimal) :
    b.move? amount = none ↔
      b.current.add? amount = none ∨
        (amount.isNegative = true ∧ b.withdrawn.add? amount.abs = none) := by
  unfold move?
  cases b.current.add? amount with
  | none => simp
  | some current =>
      cases amount.isNegative with
      | false => simp
      | true => cases b.withdrawn.add? amount.abs <;> simp

/-- Entries have no balance if one of them moves the balance before it to where there is none. -/
theorem of_entries_eq_none_iff (entries : List LedgerEntry) :
    ofEntries? entries = none ↔
      ∃ earlier e later b, entries = earlier ++ e :: later ∧ ofEntries? earlier = some b ∧
        b.move? e.amount = none := by
  induction entries using List.reverseRecOn with
  | nil =>
      refine iff_of_false (fun h => nomatch h) ?_
      rintro ⟨earlier, e, later, b, heq, _⟩
      simp at heq
  | append_singleton entries last ih =>
      rw [of_entries_concat]
      constructor
      · intro hnone
        cases hb : ofEntries? entries with
        | none =>
            obtain ⟨earlier, e, later, b, rfl, hbefore, hmove⟩ := ih.mp hb
            exact ⟨earlier, e, later ++ [last], b, by simp, hbefore, hmove⟩
        | some b =>
            rw [hb] at hnone
            exact ⟨entries, last, [], b, rfl, hb, hnone⟩
      · rintro ⟨earlier, e, later, b, heq, hbefore, hmove⟩
        rcases cut_of_concat heq with ⟨rfl, rfl⟩ | ⟨rest, hentries⟩
        · rw [hbefore]
          exact hmove
        · have hnone : ofEntries? entries = none :=
            ih.mpr ⟨earlier, e, rest, b, hentries, hbefore, hmove⟩
          rw [hnone]
          rfl

/-! ## How far sums drift -/

/-- Every entry can make what a user has, and what has been withdrawn, a half more than it is. -/
theorem drift {entries : List LedgerEntry} {b : Balance} (h : ofEntries? entries = some b) :
    b.current.value ≤ (values entries).sum + entries.length / 2 ∧
      b.withdrawn.value ≤ debits (values entries) + entries.length / 2 := by
  induction entries using List.reverseRecOn generalizing b with
  | nil =>
      cases h
      simp [zero, values, debits]
  | append_singleton entries e ih =>
      rw [of_entries_concat] at h
      obtain ⟨before, hbefore, hmove⟩ := Option.bind_eq_some_iff.mp h
      obtain ⟨hcurrent, hwithdrawn⟩ := ih hbefore
      have hvalues : values (entries ++ [e]) = values entries ++ [e.amount.value] := by
        simp [values]
      rw [hvalues, List.sum_append, List.sum_singleton, debits_append, debits_singleton,
        List.length_append, List.length_singleton, Nat.cast_add, Nat.cast_one, add_div]
      obtain ⟨hsum, htaken⟩ := move_eq_some hmove
      have herror := (abs_le.mp (Decimal.add_error hsum)).2
      refine ⟨by linarith, ?_⟩
      rcases htaken with ⟨hnegative, htotal⟩ | ⟨hnegative, heq⟩
      · have htotal := (abs_le.mp (Decimal.add_error htotal)).2
        rw [Decimal.value_abs] at htotal
        rw [if_pos ((Decimal.is_negative_iff _).mp hnegative)]
        linarith
      · have hkept : ¬ e.amount.value < 0 := by
          rw [← Decimal.is_negative_iff, hnegative]
          exact Bool.false_ne_true
        rw [heq, if_neg hkept]
        linarith

end Balance

/-! ## Covered debits -/

open Balance

/-- Every debit is covered by the balance before it. -/
def Covered (entries : List LedgerEntry) : Prop :=
  ∀ earlier e later, entries = earlier ++ e :: later → e.amount.value < 0 →
    ∃ b, ofEntries? earlier = some b ∧ 0 ≤ b.current.value + e.amount.value

namespace Covered

variable {entries : List LedgerEntry}

/-- No entries, no debits. -/
theorem nil : Covered [] := by
  intro earlier e later heq
  simp at heq

/-- One more entry has to be covered if it is a debit. -/
theorem concat (h : Covered entries) {e : LedgerEntry}
    (hcover : e.amount.value < 0 →
      ∃ b, ofEntries? entries = some b ∧ 0 ≤ b.current.value + e.amount.value) :
    Covered (entries ++ [e]) := by
  intro earlier other later heq hnegative
  rcases cut_of_concat heq with ⟨rfl, rfl⟩ | ⟨rest, hentries⟩
  · exact hcover hnegative
  · exact h earlier other rest hentries hnegative

end Covered

namespace Store

/-- Every write keeps all debits covered. -/
theorem Write.covered {s t : Store} (h : Write s t) (hs : ∀ user, Covered (s.entriesOf user)) :
    ∀ user, Covered (t.entriesOf user) := by
  intro user
  rcases h.entries_cases user with hsame | ⟨e, rfl, hmovement, hadded⟩
  · rw [hsame]
    exact hs user
  · rw [hadded]
    refine (hs _).concat fun hnegative => ?_
    cases hmovement with
    | credit hpositive =>
        have hpositive := (Decimal.is_positive_iff _).mp hpositive
        exact absurd hnegative hpositive.not_gt
    | debit b hbalance _ hcover => exact ⟨b, hbalance, hcover⟩

end Store

/-! ## When a balance has no value -/

section Overflow

variable {entries : List LedgerEntry}

/-- Where the entries before another one have a balance, it is not negative. -/
theorem Solvent.before (h : Solvent entries) {earlier later : List LedgerEntry} {e : LedgerEntry}
    {b : Balance} (heq : entries = earlier ++ e :: later) (hb : ofEntries? earlier = some b) :
    0 ≤ b.current.value ∧ 0 ≤ b.withdrawn.value := by
  refine h earlier.length b ?_
  rw [heq, List.take_left']
  · exact hb
  · rfl

/-- A movement that leaves what the user has not negative has no balance exactly if it makes a sum
that has no value. -/
theorem Balance.move_overflows {b : Balance} {amount : Decimal}
    (hwithdrawn : 0 ≤ b.withdrawn.value) (hcover : 0 ≤ b.current.value + amount.value) :
    b.move? amount = none ↔ b.Overflows amount := by
  rw [move_eq_none_iff, Decimal.add_eq_none_iff, Decimal.add_eq_none_iff, Decimal.value_abs,
    Decimal.is_negative_iff, abs_of_nonneg hcover, abs_of_nonneg (by positivity)]
  unfold Overflows
  split
  · rename_i hnegative
    -- What is left after a debit is no larger than what was there before it.
    have hbound := (abs_le.mp b.current.abs_value_le).2
    refine ⟨fun h => ?_, fun h => .inr ⟨hnegative, h⟩⟩
    rcases h with hlarge | ⟨_, hlarge⟩
    · linarith
    · exact hlarge
  · rename_i hcredit
    exact ⟨fun h => h.resolve_right fun hdebit => hcredit hdebit.1, .inl⟩

/-- If no debit makes an overdraft, entries have no balance exactly if one of them makes a sum that
has no value. -/
theorem Covered.of_entries_eq_none_iff (h : Covered entries) (hsolvent : Solvent entries) :
    ofEntries? entries = none ↔ Overlong entries := by
  rw [Balance.of_entries_eq_none_iff]
  have hsplit {earlier later : List LedgerEntry} {e : LedgerEntry} {b : Balance}
      (heq : entries = earlier ++ e :: later) (hb : ofEntries? earlier = some b) :
      b.move? e.amount = none ↔ b.Overflows e.amount := by
    obtain ⟨hcurrent, hwithdrawn⟩ := hsolvent.before heq hb
    refine move_overflows hwithdrawn ?_
    rcases lt_or_ge e.amount.value 0 with hnegative | hcredit
    · obtain ⟨other, hother, hcover⟩ := h earlier e later heq hnegative
      obtain rfl : other = b := Option.some.inj (hother.symm.trans hb)
      exact hcover
    · exact add_nonneg hcurrent hcredit
  constructor
  · rintro ⟨earlier, e, later, b, heq, hb, hmove⟩
    exact ⟨earlier, e, later, b, heq, hb, (hsplit heq hb).mp hmove⟩
  · rintro ⟨earlier, e, later, b, heq, hb, hoverflows⟩
    exact ⟨earlier, e, later, b, heq, hb, (hsplit heq hb).mpr hoverflows⟩

/-- No entry makes a sum without a value if all credits together stay below `2 ^ 96` by as much as
there are entries. -/
theorem Covered.not_overlong (h : Covered entries)
    (hcredits : credits (values entries) + entries.length ≤ 2 ^ 96) : ¬ Overlong entries := by
  rintro ⟨earlier, e, later, b, rfl, hb, hoverflows⟩
  obtain ⟨hcurrent, hwithdrawn⟩ := drift hb
  rw [sum_eq_credits_sub_debits] at hcurrent
  have hvalues : values (earlier ++ e :: later) =
      values earlier ++ ([e.amount.value] ++ values later) := by
    simp [values]
  have hlater := credits_nonneg (values later)
  have hdebits := debits_nonneg (values earlier)
  have hlength : ((earlier ++ e :: later).length : ℚ) = earlier.length + (later.length + 1) := by
    simp
  have hmore : (0 : ℚ) ≤ later.length := Nat.cast_nonneg _
  have hless : (0 : ℚ) ≤ earlier.length := Nat.cast_nonneg _
  rw [hvalues, credits_append, credits_append, credits_singleton, hlength] at hcredits
  unfold Overflows limit at hoverflows
  split at hoverflows
  · rename_i hnegative
    obtain ⟨other, hother, hcover⟩ := h earlier e later rfl hnegative
    obtain rfl : other = b := Option.some.inj (hother.symm.trans hb)
    rw [if_neg hnegative.not_gt] at hcredits
    rw [abs_of_neg hnegative] at hoverflows
    linarith
  · rename_i hcredit
    have hamount : e.amount.value ≤ if 0 < e.amount.value then e.amount.value else 0 := by
      split
      · exact le_rfl
      · rename_i hzero
        exact not_lt.mp hzero
    linarith

end Overflow

end Rewards
