import Rewards.Proofs.Decimal.Sums
import Rewards.Proofs.Ledger.Solvency

/-!
# Exact balances

A sum is rounded only if it has more than 96 bits at the larger scale of its terms. So a balance is
exact if the amounts without their signs have a sum that fits at their largest scale: no sum on the
way is larger or needs a larger scale. The main statement is `balance_exact`. It follows that the
order of such entries makes no difference to the balance, nor the scales that their amounts are
written with.
-/

namespace Rewards

/-! ## Sums of credits and of debits -/

/-- What is added, in all. -/
def credits (values : List ℚ) : ℚ := (values.filter (0 < ·)).sum

/-- What is taken away, in all. -/
def debits (values : List ℚ) : ℚ := ((values.filter (· < 0)).map (|·|)).sum

section Values

variable (values : List ℚ)

/-- Credits are summed part by part. -/
theorem credits_append (others : List ℚ) :
    credits (values ++ others) = credits values + credits others := by
  unfold credits
  rw [List.filter_append, List.sum_append]

/-- Debits are summed part by part. -/
theorem debits_append (others : List ℚ) :
    debits (values ++ others) = debits values + debits others := by
  unfold debits
  rw [List.filter_append, List.map_append, List.sum_append]

/-- A single value is a credit, or none. -/
theorem credits_singleton (v : ℚ) : credits [v] = if 0 < v then v else 0 := by
  unfold credits
  split <;> simp [*]

/-- A single value is a debit, or none. -/
theorem debits_singleton (v : ℚ) : debits [v] = if v < 0 then |v| else 0 := by
  unfold debits
  split <;> simp [*]

/-- No negative amount is summed up to the credits. -/
theorem credits_nonneg : 0 ≤ credits values := by
  refine List.sum_nonneg fun v hv => ?_
  exact (of_decide_eq_true (List.mem_filter.mp hv).2).le

/-- The debits are summed up without their signs. -/
theorem debits_nonneg : 0 ≤ debits values := by
  refine List.sum_nonneg fun v hv => ?_
  obtain ⟨w, _, rfl⟩ := List.mem_map.mp hv
  exact abs_nonneg w

/-- A sum is what is added without what is taken away. -/
theorem sum_eq_credits_sub_debits : values.sum = credits values - debits values := by
  induction values with
  | nil => simp [credits, debits]
  | cons v values ih =>
      unfold credits debits at ih ⊢
      rcases lt_trichotomy v 0 with hneg | rfl | hpos
      · simp [hneg, hneg.not_gt, abs_of_neg hneg, ih]
        ring
      · simp [ih]
      · simp [hpos, hpos.not_gt, ih]
        ring

/-- A sum without signs is what is added together with what is taken away. -/
theorem sum_abs_eq_credits_add_debits :
    (values.map (|·|)).sum = credits values + debits values := by
  induction values with
  | nil => simp [credits, debits]
  | cons v values ih =>
      unfold credits debits at ih ⊢
      rcases lt_trichotomy v 0 with hneg | rfl | hpos
      · simp [hneg, hneg.not_gt, ih]
        ring
      · simp [ih]
      · simp [hpos, hpos.not_gt, abs_of_pos hpos, ih]
        ring

/-- Debits do not depend on the order. -/
theorem debits_perm {values others : List ℚ} (h : values.Perm others) :
    debits values = debits others := ((h.filter _).map _).sum_eq

end Values

/-! ## Exact balances -/

namespace Balance

/-- The rational numbers that the amounts of entries stand for. -/
def values (entries : List LedgerEntry) : List ℚ := entries.map (·.amount.value)

/-- The largest scale of the amounts. -/
def largestScale (entries : List LedgerEntry) : Nat := (entries.map (·.amount.scale)).foldr max 0

/-- At the largest scale, the sum of the amounts without their signs fits 96 bits. -/
def Fits (entries : List LedgerEntry) : Prop :=
  ((values entries).map (|·|)).sum * 10 ^ largestScale entries < 2 ^ 96

/-- A movement is exact if the sums fit that it makes. -/
theorem move_exact {b : Balance} {amount : Decimal} {scale : Nat}
    (hcurrent : b.current.scale ≤ scale) (hwithdrawn : b.withdrawn.scale ≤ scale)
    (hamount : amount.scale ≤ scale)
    (hfits : |b.current.value + amount.value| * 10 ^ scale < 2 ^ 96)
    (htaken : |b.withdrawn.value + amount.abs.value| * 10 ^ scale < 2 ^ 96) :
    ∃ moved, b.move? amount = some moved ∧
      moved.current.value = b.current.value + amount.value ∧
      moved.withdrawn.value =
        b.withdrawn.value + (if amount.value < 0 then |amount.value| else 0) ∧
      moved.current.scale ≤ scale ∧ moved.withdrawn.scale ≤ scale := by
  obtain ⟨current, hsum, hvalue, hscale⟩ := Decimal.add_exact hcurrent hamount hfits
  by_cases hnegative : amount.isNegative = true
  · obtain ⟨withdrawn, htotal, htaken, hless⟩ :=
      Decimal.add_exact hwithdrawn (b := amount.abs) hamount htaken
    refine ⟨⟨current, withdrawn⟩, ?_, hvalue, ?_, hscale, hless⟩
    · simp [move?, hsum, hnegative, htotal]
    · rw [htaken, Decimal.value_abs, if_pos ((Decimal.is_negative_iff _).mp hnegative)]
  · refine ⟨⟨current, b.withdrawn⟩, ?_, hvalue, ?_, hscale, hwithdrawn⟩
    · simp [move?, hsum, hnegative]
    · rw [if_neg fun hvalue => hnegative ((Decimal.is_negative_iff _).mpr hvalue), add_zero]

/-- Entries have an exact balance if the amounts without their signs have a sum that fits at a scale
that is not smaller than theirs. -/
theorem of_entries_exact {scale : Nat} (entries : List LedgerEntry)
    (hscale : ∀ e ∈ entries, e.amount.scale ≤ scale)
    (hfits : ((values entries).map (|·|)).sum * 10 ^ scale < 2 ^ 96) :
    ∃ b, ofEntries? entries = some b ∧ b.current.value = (values entries).sum ∧
      b.withdrawn.value = debits (values entries) ∧
      b.current.scale ≤ scale ∧ b.withdrawn.scale ≤ scale := by
  induction entries using List.reverseRecOn with
  | nil =>
      exact ⟨zero, rfl, by simp [zero, values], by simp [zero, values, debits],
        by simp [zero, Decimal.zero]⟩
  | append_singleton entries e ih =>
      have hvalues : values (entries ++ [e]) = values entries ++ [e.amount.value] := by
        simp [values]
      have hsum := sum_abs_eq_credits_add_debits (values entries)
      have hcredits := credits_nonneg (values entries)
      have hdebits := debits_nonneg (values entries)
      have hunit : (0 : ℚ) < 10 ^ scale := by positivity
      rw [hvalues, List.map_append, List.sum_append, List.map_singleton, List.sum_singleton,
        hsum] at hfits
      -- The sums on the way are not larger than that of the amounts without their signs.
      have hless {v : ℚ} (hv : v ≤ credits (values entries) + debits (values entries) +
          |e.amount.value|) : v * 10 ^ scale < 2 ^ 96 :=
        (mul_le_mul_of_nonneg_right hv hunit.le).trans_lt hfits
      obtain ⟨b, hb, hcurrent, hwithdrawn, hcurrentScale, hwithdrawnScale⟩ :=
        ih (fun other hmem => hscale other (List.mem_append_left _ hmem))
          (by rw [hsum]; exact hless (le_add_of_nonneg_right (abs_nonneg _)))
      rw [sum_eq_credits_sub_debits] at hcurrent
      have hmore : |b.current.value + e.amount.value| * 10 ^ scale < 2 ^ 96 := by
        refine hless ((abs_add_le _ _).trans (add_le_add_left ?_ _))
        rw [hcurrent, abs_le]
        constructor <;> linarith
      have htaken : |b.withdrawn.value + e.amount.abs.value| * 10 ^ scale < 2 ^ 96 := by
        refine hless ((abs_add_le _ _).trans ?_)
        rw [hwithdrawn, Decimal.value_abs, abs_abs, abs_of_nonneg hdebits]
        exact add_le_add_left (le_add_of_nonneg_left hcredits) _
      obtain ⟨moved, hmoved, hleft, hgone, hscales⟩ := move_exact hcurrentScale hwithdrawnScale
        (hscale e (List.mem_append_right _ (List.mem_singleton_self _))) hmore htaken
      refine ⟨moved, by rw [of_entries_concat, hb]; exact hmoved, ?_, ?_, hscales⟩
      · rw [hleft, hcurrent, hvalues, List.sum_append, List.sum_singleton,
          sum_eq_credits_sub_debits]
      · rw [hgone, hwithdrawn, hvalues, debits_append, debits_singleton]

/-! ## Orders and scales -/

/-- No amount has a larger scale than the largest. -/
theorem scale_le_largest {entries : List LedgerEntry} {e : LedgerEntry} (h : e ∈ entries) :
    e.amount.scale ≤ largestScale entries := by
  unfold largestScale
  induction entries with
  | nil => cases h
  | cons first rest ih =>
      rcases List.mem_cons.mp h with rfl | hrest
      · exact le_max_left _ _
      · exact (ih hrest).trans (le_max_right _ _)

/-- The order makes no difference to whether entries fit. -/
theorem Fits.perm {entries others : List LedgerEntry} (h : Fits entries)
    (hperm : entries.Perm others) : Fits others := by
  have hscale : largestScale entries = largestScale others := (hperm.map _).foldr_eq 0
  have hsum : ((values entries).map (|·|)).sum = ((values others).map (|·|)).sum :=
    ((hperm.map _).map _).sum_eq
  unfold Fits at h ⊢
  rwa [← hscale, ← hsum]

/-- Entries that fit have an exact balance. -/
theorem Fits.exact {entries : List LedgerEntry} (h : Fits entries) :
    ∃ b, ofEntries? entries = some b ∧ b.current.value = (values entries).sum ∧
      b.withdrawn.value = debits (values entries) ∧
      b.current.scale ≤ largestScale entries ∧ b.withdrawn.scale ≤ largestScale entries :=
  of_entries_exact entries (fun _ hmem => scale_le_largest hmem) h

/-- If amounts fit 96 bits at the largest scale, the balance is exact: what a user has is the sum of
the amounts, what has been withdrawn is the sum of the negative ones without their signs, and the
two together are the sum of the positive ones. The same entries in another order have a balance of
the same values, and so have entries with the same amounts in any order and at any scales at which
they fit. -/
theorem balance_exact (entries : List LedgerEntry) (hfits : Fits entries) :
    ∃ b, ofEntries? entries = some b ∧
      b.current.value = (values entries).sum ∧
      b.withdrawn.value = debits (values entries) ∧
      b.current.value + b.withdrawn.value = credits (values entries) ∧
      (∃ total, b.current.add? b.withdrawn = some total ∧
        total.value = credits (values entries)) ∧
      (∀ others, entries.Perm others → ∃ c, ofEntries? others = some c ∧
        c.current.value = b.current.value ∧ c.withdrawn.value = b.withdrawn.value) ∧
      (∀ others, (values entries).Perm (values others) → Fits others →
        ∃ c, ofEntries? others = some c ∧
          c.current.value = b.current.value ∧ c.withdrawn.value = b.withdrawn.value) := by
  obtain ⟨b, hb, hcurrent, hwithdrawn, hcurrentScale, hwithdrawnScale⟩ := hfits.exact
  have htogether : b.current.value + b.withdrawn.value = credits (values entries) := by
    rw [hcurrent, hwithdrawn, sum_eq_credits_sub_debits, sub_add_cancel]
  have hsame (others : List LedgerEntry) (hvalues : (values entries).Perm (values others))
      (hothers : Fits others) : ∃ c, ofEntries? others = some c ∧
        c.current.value = b.current.value ∧ c.withdrawn.value = b.withdrawn.value := by
    obtain ⟨c, hc, hsum, hdebits, _⟩ := hothers.exact
    refine ⟨c, hc, ?_, ?_⟩
    · rw [hsum, hcurrent, hvalues.sum_eq]
    · rw [hdebits, hwithdrawn, debits_perm hvalues]
  refine ⟨b, hb, hcurrent, hwithdrawn, htogether, ?_, ?_, hsame⟩
  · rw [← htogether]
    have hless : |b.current.value + b.withdrawn.value| * 10 ^ largestScale entries < 2 ^ 96 := by
      refine lt_of_le_of_lt (mul_le_mul_of_nonneg_right ?_ (by positivity)) hfits
      rw [htogether, abs_of_nonneg (credits_nonneg _), sum_abs_eq_credits_add_debits]
      exact le_add_of_nonneg_right (debits_nonneg _)
    obtain ⟨total, htotal, hvalue, _⟩ := Decimal.add_exact hcurrentScale hwithdrawnScale hless
    exact ⟨total, htotal, hvalue⟩
  · intro others hperm
    exact hsame others (hperm.map _) (hfits.perm hperm)

/-- What is left of 1.10, -0.5 and 2 is 2.60. With 1.1 in place of 1.10 and in another order it is
2.6, which is the same value. -/
theorem balance_exact_rearranged :
    let movement (amount : Decimal) : LedgerEntry := ⟨⟨"18", rfl⟩, default, amount, default⟩
    let movements := [movement ⟨110, 2, by decide, by decide⟩,
      movement ⟨-5, 1, by decide, by decide⟩, movement ⟨2, 0, by decide, by decide⟩]
    let rearranged := [movement ⟨2, 0, by decide, by decide⟩,
      movement ⟨11, 1, by decide, by decide⟩, movement ⟨-5, 1, by decide, by decide⟩]
    Fits movements ∧ Fits rearranged ∧
      (∃ b, ofEntries? movements = some b ∧ b.current.value = 13 / 5 ∧
        b.withdrawn.value = 1 / 2) ∧
      ∃ b c, ofEntries? movements = some b ∧ ofEntries? rearranged = some c ∧
        b.current ≠ c.current ∧ c.current.value = b.current.value := by
  intro movement movements rearranged
  obtain ⟨hfits, hrearranged, hperm, htotal, hdebits, hleft⟩ :
      Fits movements ∧ Fits rearranged ∧ (values movements).Perm (values rearranged) ∧
        (values movements).sum = 13 / 5 ∧ debits (values movements) = 1 / 2 ∧
        (ofEntries? movements).map (·.current) ≠ (ofEntries? rearranged).map (·.current) := by
    unfold Fits
    decide +kernel +revert
  obtain ⟨b, hb, hcurrent, hwithdrawn, _, _, _, hsame⟩ := balance_exact movements hfits
  obtain ⟨c, hc, hvalue, _⟩ := hsame rearranged hperm hrearranged
  refine ⟨hfits, hrearranged, ⟨b, hb, hcurrent.trans htotal, hwithdrawn.trans hdebits⟩,
    b, c, hb, hc, ?_, hvalue⟩
  rw [hb, hc] at hleft
  exact fun heq => hleft (congrArg some heq)

end Balance

end Rewards
