import Rewards.Proofs.Decimal.Rendering
import Rewards.Proofs.Store.Calls

/-!
# Amounts that can be withdrawn

Whether an amount can be withdrawn is a matter of its value: it has to be positive and a whole
number of hundredths, `request_eq`. The scale that it is written with does not count, neither here
nor where the funds are checked. So all debits of the ledger are whole numbers of hundredths. The
main statement is `amounts_by_value`.
-/

namespace Rewards

/-! ## Hundredths -/

namespace Decimal

/-- The value is a whole number of hundredths. -/
def IsHundredths (a : Decimal) : Prop := ∃ hundredths : ℤ, 100 * a.value = hundredths

variable {a b : Decimal}

/-- Amounts of one value are whole numbers of hundredths together. -/
theorem is_hundredths_congr (h : a.value = b.value) : a.IsHundredths ↔ b.IsHundredths := by
  rw [IsHundredths, IsHundredths, h]

/-- The sign does not matter to the number of places. -/
theorem is_hundredths_neg : a.neg.IsHundredths ↔ a.IsHundredths := by
  have hneg {a : Decimal} (h : a.IsHundredths) : a.neg.IsHundredths := by
    obtain ⟨hundredths, heq⟩ := h
    exact ⟨-hundredths, by rw [value_neg, mul_neg, heq, Int.cast_neg]⟩
  refine ⟨fun h => ?_, hneg⟩
  rw [is_hundredths_congr (a := a) (b := a.neg.neg) (by simp)]
  exact hneg h

/-- Two places are enough without zeros at the end exactly if the value is a whole number of
hundredths. -/
theorem fits_currency_scale_iff (a : Decimal) : a.fitsCurrencyScale = true ↔ a.IsHundredths := by
  rw [fitsCurrencyScale, decide_eq_true_iff]
  constructor
  · intro hscale
    refine ⟨a.normalize.coefficientAt currencyScale, ?_⟩
    rw [coefficient_at_eq _ hscale, value_normalize, currencyScale]
    ring
  · rintro ⟨hundredths, heq⟩
    refine normalize_scale_le (c := hundredths) ?_
    rw [← heq, currencyScale]
    ring

end Decimal

/-! ## Verdicts -/

/-- The same refusal, about amounts of the same value. -/
inductive WithdrawalError.Alike : WithdrawalError → WithdrawalError → Prop where
  | nonPositiveAmount {a b : Decimal} :
      a.value = b.value → Alike (.nonPositiveAmount a) (.nonPositiveAmount b)
  | tooPrecise {a b : Decimal} : a.value = b.value → Alike (.tooPrecise a) (.tooPrecise b)
  | insufficientFunds {a b current other : Decimal} :
      a.value = b.value → current.value = other.value →
      Alike (.insufficientFunds a current) (.insufficientFunds b other)

/-- Both are accepted, with results that belong together, or both are refused alike. -/
inductive SameVerdict {α : Type} (related : α → α → Prop) :
    Except WithdrawalError α → Except WithdrawalError α → Prop where
  | accepted {x y : α} : related x y → SameVerdict related (.ok x) (.ok y)
  | refused {e f : WithdrawalError} : e.Alike f → SameVerdict related (.error e) (.error f)

/-- The same verdict, with results of which less is said. -/
theorem SameVerdict.mono {α : Type} {related wider : α → α → Prop} {x y : Except WithdrawalError α}
    (h : SameVerdict related x y) (hwider : ∀ u v, related u v → wider u v) :
    SameVerdict wider x y := by
  cases h with
  | accepted hrelated => exact .accepted (hwider _ _ hrelated)
  | refused halike => exact .refused halike

namespace Withdrawal

variable {order : OrderNumber} {user : UserId} {a b : Decimal}

/-- An amount of nothing or less is refused. -/
theorem request_non_positive (order : OrderNumber) (user : UserId) (h : a.value ≤ 0) :
    request order user a = .error (.nonPositiveAmount a) := by
  have hsign : ¬ a.isPositive = true := by
    rw [Decimal.is_positive_iff]
    exact not_lt.mpr h
  rw [request, dif_neg hsign]

/-- A positive amount with more than two places is refused. -/
theorem request_too_precise (order : OrderNumber) (user : UserId) (hpositive : 0 < a.value)
    (h : ¬ a.IsHundredths) : request order user a = .error (.tooPrecise a) := by
  rw [← Decimal.is_positive_iff] at hpositive
  rw [← Decimal.fits_currency_scale_iff] at h
  rw [request, dif_pos hpositive, dif_neg h]

/-- A positive number of hundredths is accepted as it is. -/
theorem request_accepted (order : OrderNumber) (user : UserId) (hpositive : 0 < a.value)
    (h : a.IsHundredths) :
    ∃ w, request order user a = .ok w ∧ w.order = order ∧ w.user = user ∧ w.amount = a := by
  rw [← Decimal.is_positive_iff] at hpositive
  rw [← Decimal.fits_currency_scale_iff] at h
  rw [request, dif_pos hpositive, dif_pos h]
  exact ⟨_, rfl, rfl, rfl, rfl⟩

/-- What is accepted is the request. -/
theorem of_request_ok {w : Withdrawal} (h : request order user a = .ok w) :
    w.order = order ∧ w.user = user ∧ w.amount = a := by
  rcases le_or_gt a.value 0 with hsign | hsign
  · rw [request_non_positive order user hsign] at h
    cases h
  · by_cases hplaces : a.IsHundredths
    · obtain ⟨v, hv, hfields⟩ := request_accepted order user hsign hplaces
      rw [hv] at h
      cases h
      exact hfields
    · rw [request_too_precise order user hsign hplaces] at h
      cases h

/-- The amount of a withdrawal is positive. -/
theorem amount_pos (w : Withdrawal) : 0 < w.amount.value :=
  (Decimal.is_positive_iff _).mp w.isPositive

/-- The amount of a withdrawal is a whole number of hundredths. -/
theorem amount_hundredths (w : Withdrawal) : w.amount.IsHundredths :=
  (Decimal.fits_currency_scale_iff _).mp w.fitsCurrency

/-- A request is judged by the value of its amount. -/
theorem request_congr (order : OrderNumber) (user : UserId) (h : a.value = b.value) :
    SameVerdict (fun w v => w.amount = a ∧ v.amount = b) (request order user a)
      (request order user b) := by
  rcases le_or_gt a.value 0 with hsign | hsign
  · rw [request_non_positive order user hsign, request_non_positive order user (h ▸ hsign)]
    exact .refused (.nonPositiveAmount h)
  · by_cases hplaces : a.IsHundredths
    · obtain ⟨w, hw, -, -, hamount⟩ := request_accepted order user hsign hplaces
      obtain ⟨v, hv, -, -, hother⟩ := request_accepted order user (h ▸ hsign)
        ((Decimal.is_hundredths_congr h).mp hplaces)
      rw [hw, hv]
      exact .accepted ⟨hamount, hother⟩
    · rw [request_too_precise order user hsign hplaces, request_too_precise order user (h ▸ hsign)
        (mt (Decimal.is_hundredths_congr h).mpr hplaces)]
      exact .refused (.tooPrecise h)

/-- Funds are checked by the values of the amount and of the balance. -/
theorem check_funds_congr {w v : Withdrawal} {current other : Decimal}
    (hamount : w.amount.value = v.amount.value) (hcurrent : current.value = other.value) :
    SameVerdict (fun _ _ => True) (w.checkFunds current) (v.checkFunds other) := by
  have hless : current.lt w.amount = true ↔ other.lt v.amount = true := by
    rw [Decimal.lt_iff_value, Decimal.lt_iff_value, hamount, hcurrent]
  unfold checkFunds
  by_cases hshort : current.lt w.amount = true
  · rw [if_pos hshort, if_pos (hless.mp hshort)]
    exact .refused (.insufficientFunds hamount hcurrent)
  · rw [if_neg hshort, if_neg (mt hless.mpr hshort)]
    exact .accepted trivial

/-- The debit of a withdrawal takes away a whole number of hundredths. -/
theorem to_entry_hundredths (w : Withdrawal) (now : Instant) :
    (w.toEntry now).amount.value < 0 ∧ (w.toEntry now).amount.IsHundredths := by
  refine ⟨?_, Decimal.is_hundredths_neg.mpr w.amount_hundredths⟩
  rw [toEntry, Decimal.value_neg, neg_lt_zero]
  exact w.amount_pos

end Withdrawal

/-! ## Debits of the ledger -/

namespace Store

/-- All debits of the ledger are whole numbers of hundredths. -/
def DebitsFit (s : Store) : Prop :=
  ∀ e ∈ s.entries, e.isWithdrawal = true → e.amount.IsHundredths

/-- No write adds another kind of debit. -/
theorem Write.debits_fit {s t : Store} (h : Write s t) (hs : s.DebitsFit) : t.DebitsFit := by
  cases h with
  | register | upload => exact hs
  | advance order target accrual now =>
      intro e he hdebit
      rcases List.mem_append.mp he with hold | hcredit
      · exact hs e hold hdebit
      · -- What is earned is no debit.
        unfold creditFor at hcredit
        split at hcredit
        · rename_i hpositive
          rw [List.mem_singleton.mp hcredit, LedgerEntry.isWithdrawal,
            Decimal.is_negative_eq_false_of_is_positive hpositive.2] at hdebit
          cases hdebit
        · cases hcredit
  | debit w now =>
      intro e he hdebit
      rcases List.mem_append.mp he with hold | hnew
      · exact hs e hold hdebit
      · rw [List.mem_singleton.mp hnew]
        exact (w.to_entry_hundredths now).2

/-- All debits are whole numbers of hundredths after any calls. -/
theorem debits_fit (calls : List Call) : (after calls).DebitsFit := by
  have hempty : empty.DebitsFit := fun e he => absurd he List.not_mem_nil
  exact after_keeps hempty Write.debits_fit calls

/-- A withdrawal that goes through adds its debit. -/
theorem withdraw_ok {s t : Store} {w : Withdrawal} {now : Instant} {receipt : WithdrawalReceipt}
    (h : s.withdraw w now = .ok (receipt, t)) :
    receipt.entry = w.toEntry now ∧ t.entries = s.entries ++ [w.toEntry now] := by
  have heffect := perform_effect (.withdraw w now) s
  simp only [perform, run_reply, apply_withdraw, h, inPlace] at heffect
  cases heffect with
  | nothing _ _ hreply => cases hreply
  | debit => exact ⟨rfl, rfl⟩
  | anchor => exact ⟨rfl, rfl⟩

end Store

namespace Withdrawal

/-- Amounts are judged by their values. An amount fits the currency exactly if a hundred times its
value is an integer. It can be withdrawn exactly if it is positive and fits, and is then kept as it
is; it is refused as not positive if it is not, and as too precise otherwise. Two amounts of one
value, with any scales, come to the same verdict when they are requested, and so do withdrawals of
them when the funds are checked against any balance. Every debit that a withdrawal adds to a ledger
is negative and a whole number of hundredths, and after any calls all debits are. -/
theorem amounts_by_value :
    (∀ a : Decimal, a.fitsCurrencyScale = true ↔ ∃ n : ℤ, 100 * a.value = n) ∧
    (∀ (order : OrderNumber) (user : UserId) (a : Decimal),
      ((∃ w, request order user a = .ok w) ↔ 0 < a.value ∧ ∃ n : ℤ, 100 * a.value = n) ∧
      (∀ w, request order user a = .ok w → w.order = order ∧ w.user = user ∧ w.amount = a) ∧
      (a.value ≤ 0 → request order user a = .error (.nonPositiveAmount a)) ∧
      (0 < a.value → (¬ ∃ n : ℤ, 100 * a.value = n) →
        request order user a = .error (.tooPrecise a))) ∧
    (∀ (order : OrderNumber) (user : UserId) (a b : Decimal), a.value = b.value →
      SameVerdict (fun w v => w.amount = a ∧ v.amount = b ∧
          ∀ current other : Decimal, current.value = other.value →
            SameVerdict (fun _ _ => True) (w.checkFunds current) (v.checkFunds other))
        (request order user a) (request order user b)) ∧
    (∀ (s t : Store) (w : Withdrawal) (now : Instant) (receipt : WithdrawalReceipt),
      s.withdraw w now = .ok (receipt, t) →
        t.entries = s.entries ++ [receipt.entry] ∧ receipt.entry.amount.value < 0 ∧
          ∃ n : ℤ, 100 * receipt.entry.amount.value = n) ∧
    (∀ (calls : List Store.Call), ∀ e ∈ (Store.after calls).entries, e.isWithdrawal = true →
      ∃ n : ℤ, 100 * e.amount.value = n) := by
  refine ⟨Decimal.fits_currency_scale_iff, fun order user a => ⟨?_, ?_, ?_, ?_⟩, ?_, ?_, ?_⟩
  · constructor
    · rintro ⟨w, hw⟩
      obtain ⟨-, -, rfl⟩ := of_request_ok hw
      exact ⟨w.amount_pos, w.amount_hundredths⟩
    · rintro ⟨hpositive, hplaces⟩
      obtain ⟨w, hw, -⟩ := request_accepted order user hpositive hplaces
      exact ⟨w, hw⟩
  · exact fun w hw => of_request_ok hw
  · exact request_non_positive order user
  · exact request_too_precise order user
  · intro order user a b hvalue
    refine (request_congr order user hvalue).mono fun w v ⟨hw, hv⟩ => ⟨hw, hv, ?_⟩
    exact fun current other => check_funds_congr (by rw [hw, hv, hvalue])
  · intro s t w now receipt hwithdraw
    obtain ⟨hentry, hentries⟩ := Store.withdraw_ok hwithdraw
    rw [hentry]
    exact ⟨hentries, w.to_entry_hundredths now⟩
  · exact Store.debits_fit

/-- One and a half is accepted as `1.50` and as `1.5` with the same checks of funds. The amount
`1.005` is too precise and `-1.50` is not positive. A user who has earned five points and withdraws
`1.50` has one debit in the ledger, which is negative and a whole number of hundredths. -/
theorem amounts_by_value_in_two_scales :
    let long : Decimal := ⟨150, 2, by decide, by decide⟩
    let short : Decimal := ⟨15, 1, by decide, by decide⟩
    let fine : Decimal := ⟨1005, 3, by decide, by decide⟩
    let five : Decimal := ⟨5, 0, by decide, by decide⟩
    let number : OrderNumber := ⟨"125", rfl⟩
    let w : Withdrawal := ⟨number, default, long, by decide, by decide +kernel⟩
    let calls : List Store.Call :=
      [.createOrder number default default, .transition number .new .processing none default,
        .transition number .processing .processed (some five) default]
    (∃ v, request number default long = .ok v) ∧
    SameVerdict (fun w v => w.amount = long ∧ v.amount = short ∧
        ∀ current other : Decimal, current.value = other.value →
          SameVerdict (fun _ _ => True) (w.checkFunds current) (v.checkFunds other))
      (request number default long) (request number default short) ∧
    request number default fine = .error (.tooPrecise fine) ∧
    request number default long.neg = .error (.nonPositiveAmount long.neg) ∧
    (∃ receipt t, (Store.after calls).withdraw w default = .ok (receipt, t) ∧
      receipt.entry.amount.value < 0 ∧ ∃ n : ℤ, 100 * receipt.entry.amount.value = n) ∧
    (w.toEntry default ∈ (Store.after (calls ++ [.withdraw w default])).entries ∧
      ∃ n : ℤ, 100 * (w.toEntry default).amount.value = n) := by
  intro long short fine five number w calls
  obtain ⟨-, hrequest, htwo, hwithdraw, hcalls⟩ := amounts_by_value
  have hvalue : long.value = short.value := by decide +kernel
  have hplaces : ¬ ∃ n : ℤ, 100 * fine.value = n :=
    mt (Decimal.fits_currency_scale_iff fine).mpr (by decide +kernel)
  obtain ⟨⟨receipt, t⟩, hdebit⟩ : ∃ result, (Store.after calls).withdraw w default = .ok result :=
    ⟨_, rfl⟩
  refine ⟨(hrequest number default long).1.mpr ⟨by decide +kernel, 150, by decide +kernel⟩,
    htwo number default long short hvalue,
    (hrequest number default fine).2.2.2 (by decide +kernel) hplaces,
    (hrequest number default long.neg).2.2.1 (by decide +kernel),
    ⟨receipt, t, hdebit, (hwithdraw _ _ _ _ _ hdebit).2⟩, ?_⟩
  have hmem : w.toEntry default ∈ (Store.after (calls ++ [.withdraw w default])).entries := by
    decide +kernel
  exact ⟨hmem, hcalls _ _ hmem (by decide +kernel)⟩

end Withdrawal

end Rewards
