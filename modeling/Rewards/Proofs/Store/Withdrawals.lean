import Rewards.Proofs.Ledger.Agreement
import Rewards.Proofs.Store.Listings

/-!
# The list of withdrawals

The withdrawals of a user are listed by their time, the newest first, and those of the same time
with the last one first. The main statement, `withdrawal_history`, says that this describes one list
only, whatever the times in the ledger are, and that the list is the history of the withdrawals
backwards if the clock has never been set back between them.
-/

namespace Rewards

/-! ## Sorting with ties -/

section Sorting

variable {α κ : Type}

/-- Sorting leaves the items that pass a test in their order if all of them count as equal. -/
theorem filter_merge_sort {le : α → α → Bool}
    (htrans : ∀ a b c, le a b = true → le b c = true → le a c = true)
    (htotal : ∀ a b, (le a b || le b a) = true) {p : α → Bool}
    (hties : ∀ a b, p a = true → p b = true → le a b = true) (items : List α) :
    (items.mergeSort le).filter p = items.filter p := by
  have hsorted : (items.filter p).Pairwise fun a b => le a b = true := by
    refine List.pairwise_of_forall_mem_list fun a ha b hb => ?_
    exact hties a b (List.mem_filter.mp ha).2 (List.mem_filter.mp hb).2
  have hsublist : (items.filter p).Sublist ((items.mergeSort le).filter p) := by
    have h := (List.sublist_mergeSort htrans htotal hsorted List.filter_sublist).filter p
    simpa [List.filter_filter] using h
  have hperm := (List.mergeSort_perm items le).filter p
  exact (hsublist.eq_of_length hperm.length_eq.symm).symm

/-- Lists that are sorted by a key, and have the same items in the same order under each key, are
the same. -/
theorem eq_of_sorted_of_ties [DecidableEq κ] {key : α → κ} {le : κ → κ → Prop}
    (hantisymm : ∀ k l, le k l → le l k → k = l) {items others : List α}
    (hitems : items.Pairwise fun a b => le (key a) (key b))
    (hothers : others.Pairwise fun a b => le (key a) (key b))
    (hties : ∀ k, items.filter (key · = k) = others.filter (key · = k)) : items = others := by
  induction items generalizing others with
  | nil =>
      cases others with
      | nil => rfl
      | cons b others => simpa using hties (key b)
  | cons a items ih =>
      cases others with
      | nil => simpa using hties (key a)
      | cons b others =>
          -- Each of the first items comes before or is the other one, so their keys are the same.
          have ha : a ∈ b :: others := by
            have hmem : a ∈ (a :: items).filter (key · = key a) := by simp
            rw [hties] at hmem
            exact (List.mem_filter.mp hmem).1
          have hb : b ∈ a :: items := by
            have hmem : b ∈ (b :: others).filter (key · = key b) := by simp
            rw [← hties] at hmem
            exact (List.mem_filter.mp hmem).1
          have hkey : key a = key b := by
            rcases List.mem_cons.mp ha with rfl | ha
            · rfl
            rcases List.mem_cons.mp hb with rfl | hb
            · rfl
            exact hantisymm _ _ ((List.pairwise_cons.mp hitems).1 b hb)
              ((List.pairwise_cons.mp hothers).1 a ha)
          obtain rfl : a = b := by
            have hfirst := hties (key a)
            rw [List.filter_cons_of_pos (by simp),
              List.filter_cons_of_pos (by simp [hkey])] at hfirst
            exact (List.cons.inj hfirst).1
          rw [ih (List.pairwise_cons.mp hitems).2 (List.pairwise_cons.mp hothers).2]
          intro k
          have hrest := hties k
          by_cases hk : key a = k
          · rw [List.filter_cons_of_pos (by simpa using hk),
              List.filter_cons_of_pos (by simpa using hk)] at hrest
            exact (List.cons.inj hrest).2
          · rwa [List.filter_cons_of_neg (by simpa using hk),
              List.filter_cons_of_neg (by simpa using hk)] at hrest

end Sorting

namespace Store

/-! ## The list in any store -/

/-- The entries that take points from a user, in the order in which they were appended. -/
def debitsOf (s : Store) (user : UserId) : List LedgerEntry :=
  s.entries.filter fun e => e.user = user ∧ e.amount.value < 0

/-- A list has the debits of a user, the newest first, and those of the same time in the reverse of
the order in which they were appended. -/
structure IsHistory (s : Store) (user : UserId) (list : List LedgerEntry) : Prop where
  debits : list.Perm (s.debitsOf user)
  newest : list.Pairwise fun a b => b.processedAt.le a.processedAt = true
  ties : ∀ time, list.filter (·.processedAt = time) =
    ((s.debitsOf user).filter (·.processedAt = time)).reverse

variable {s : Store} {user : UserId}

/-- The withdrawals of a user are the debits of the user, sorted from the last one to the first. -/
theorem withdrawals_of_eq (s : Store) (user : UserId) :
    s.withdrawalsOf user =
      (s.debitsOf user).reverse.mergeSort fun a b => b.processedAt.le a.processedAt := by
  have htest (e : LedgerEntry) :
      (e.isWithdrawal && e.user == user) = decide (e.user = user ∧ e.amount.value < 0) := by
    rw [Bool.eq_iff_iff, Bool.and_eq_true, decide_eq_true_eq, LedgerEntry.isWithdrawal,
      Decimal.is_negative_iff, beq_iff_eq, and_comm]
  unfold withdrawalsOf entriesOf debitsOf
  simp only [List.filter_filter, htest]

/-- The withdrawals of a user are listed as described. -/
theorem history_of_withdrawals (s : Store) (user : UserId) :
    IsHistory s user (s.withdrawalsOf user) := by
  have htrans (a b c : LedgerEntry) (hab : b.processedAt.le a.processedAt = true)
      (hbc : c.processedAt.le b.processedAt = true) : c.processedAt.le a.processedAt = true :=
    Instant.le_trans hbc hab
  have htotal (a b : LedgerEntry) :
      (b.processedAt.le a.processedAt || a.processedAt.le b.processedAt) = true := by
    rw [Bool.or_eq_true]
    exact Instant.le_total _ _
  rw [withdrawals_of_eq]
  refine ⟨?_, List.pairwise_mergeSort htrans htotal _, fun time => ?_⟩
  · exact (List.mergeSort_perm _ _).trans (List.reverse_perm _)
  · rw [← List.filter_reverse]
    refine filter_merge_sort htrans htotal (fun a b ha hb => ?_) _
    rw [decide_eq_true_eq] at ha hb
    rw [ha, hb]
    exact Instant.le_refl time

/-- No other list is as described. -/
theorem IsHistory.unique {list other : List LedgerEntry} (h : IsHistory s user list)
    (hother : IsHistory s user other) : list = other := by
  refine eq_of_sorted_of_ties (fun a b hba hab => Instant.le_antisymm hab hba) h.newest
    hother.newest fun time => ?_
  rw [h.ties, hother.ties]

/-- If no debit of a user is older than one before it, the history is the debits backwards. -/
theorem history_of_forward
    (hforward : (s.debitsOf user).Pairwise fun a b => a.processedAt.le b.processedAt = true) :
    IsHistory s user (s.debitsOf user).reverse :=
  ⟨List.reverse_perm _, List.pairwise_reverse.mpr hforward, fun _ => List.filter_reverse⟩

/-! ## The list after calls -/

/-- The time of a withdrawal that is asked for. -/
def Call.withdrawalTime? : Call → Option Instant
  | .withdraw _ now => some now
  | _ => none

/-- A debit has the time of the call that asked for it. -/
theorem Effect.debit_time {t : Store} {call : Call} {reply : Reply} (h : Effect s call reply t) :
    (reply.debit?.toList.map (·.processedAt)).Sublist call.withdrawalTime?.toList := by
  cases h with
  | nothing call reply hnone =>
      rw [hnone]
      exact List.nil_sublist _
  | register | upload | advance => exact List.nil_sublist _
  | debit | anchor => exact List.Sublist.refl _

/-- The times of the debits are those of calls, in their order. -/
theorem debit_times (calls : List Call) :
    (((replies calls).filterMap Reply.debit?).map (·.processedAt)).Sublist
      (calls.filterMap Call.withdrawalTime?) := by
  have hsingle {α β : Type} (f : α → Option β) (a : α) : [a].filterMap f = (f a).toList := by
    cases h : f a <;> simp [h]
  induction calls using List.reverseRecOn with
  | nil => exact List.Sublist.refl _
  | append_singleton calls call ih =>
      rw [replies_concat, List.filterMap_append, List.filterMap_append, List.map_append,
        hsingle, hsingle]
      exact ih.append (perform_effect call _).debit_time

/-- The debits of a user are those that were returned to the user, in their order. -/
theorem debits_of_after (calls : List Call) (user : UserId) :
    (after calls).debitsOf user =
      ((replies calls).filterMap Reply.debit?).filter (·.user = user) := by
  rw [← debits_after, debits, debitsOf, List.filter_filter]
  refine List.filter_congr fun e _ => ?_
  rw [Bool.eq_iff_iff, Bool.and_eq_true, decide_eq_true_eq, decide_eq_true_eq,
    LedgerEntry.isWithdrawal, Decimal.is_negative_iff]

/-- In any store, with any times in its ledger, the withdrawals of a user are listed as described,
and no other list is. After calls in which no withdrawal was asked for at an earlier time than the
one before it, the list has the debits that were returned to the user, the last one first. -/
theorem withdrawal_history :
    (∀ (s : Store) (user : UserId) (list : List LedgerEntry),
      IsHistory s user list ↔ list = s.withdrawalsOf user) ∧
    (∀ (calls : List Call) (user : UserId),
      (calls.filterMap Call.withdrawalTime?).Pairwise (fun a b => a.le b = true) →
      (after calls).withdrawalsOf user =
        (((replies calls).filterMap Reply.debit?).filter (·.user = user)).reverse) := by
  constructor
  · intro s user list
    constructor
    · intro h
      exact h.unique (history_of_withdrawals s user)
    · rintro rfl
      exact history_of_withdrawals s user
  · intro calls user hclock
    have hdebits := List.pairwise_map.mp (hclock.sublist (debit_times calls))
    have hforward : ((after calls).debitsOf user).Pairwise fun a b =>
        a.processedAt.le b.processedAt = true := by
      rw [debits_of_after]
      exact hdebits.filter _
    rw [← debits_of_after]
    exact (history_of_withdrawals _ user).unique (history_of_forward hforward)

/-- Two withdrawals at the same time: the one that was asked for last is listed first. -/
theorem withdrawal_history_same_time :
    let first : Withdrawal :=
      ⟨⟨"18", rfl⟩, default, ⟨2, 0, by decide, by decide⟩, by decide, by decide +kernel⟩
    let second : Withdrawal :=
      ⟨⟨"26", rfl⟩, default, ⟨4, 0, by decide, by decide⟩, by decide, by decide +kernel⟩
    let ten : Decimal := ⟨10, 0, by decide, by decide⟩
    let calls : List Call :=
      [.createOrder ⟨"125", rfl⟩ default default,
        .transition ⟨"125", rfl⟩ .new .processing none default,
        .transition ⟨"125", rfl⟩ .processing .processed (some ten) default,
        .withdraw first default, .withdraw second default]
    (after calls).withdrawalsOf default = [second.toEntry default, first.toEntry default] := by
  intro first second ten calls
  have hdebits : ((replies calls).filterMap Reply.debit?).filter (·.user = default) =
      [first.toEntry default, second.toEntry default] := by decide +kernel
  rw [withdrawal_history.2 calls default (by decide +kernel), hdebits]
  rfl

end Store

end Rewards
