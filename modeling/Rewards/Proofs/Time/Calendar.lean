import Mathlib.Data.List.Basic
import Rewards.Time.Date

/-!
# Days and dates

A day has a date that exists, and this is the date of no other day, `date_of_day`.
-/

namespace Rewards.Time

/-! ## Years -/

/-- A year has 366 days if it is a leap year. -/
def yearLength (year : Int) : Nat := if isLeap year then 366 else 365

/-- A year begins when the one before it has ended. -/
theorem days_before_next_year (year : Int) :
    daysBeforeYear (year + 1) = daysBeforeYear year + yearLength year := by
  have hleap : isLeap year = true ↔ year % 4 = 0 ∧ (year % 100 ≠ 0 ∨ year % 400 = 0) := by
    simp [isLeap]
  unfold daysBeforeYear yearLength
  split <;> rename_i h <;> rw [hleap] at h <;> omega

/-- A day lies in its year. -/
theorem year_of_days_bounds (days : Int) :
    daysBeforeYear (yearOfDays days) ≤ days ∧ days < daysBeforeYear (yearOfDays days + 1) := by
  unfold yearOfDays
  simp only
  split
  · rename_i hlate
    unfold daysBeforeYear at *
    omega
  · split
    · rename_i hnext hearly
      rw [Int.sub_add_cancel]
      unfold daysBeforeYear at *
      omega
    · rename_i hnext hearly
      exact ⟨Int.not_lt.mp hearly, Int.not_le.mp hnext⟩

/-- A day in one of the years from 0 to 9999. -/
theorem year_of_days_range (days : Int) :
    (0 ≤ yearOfDays days ∧ yearOfDays days ≤ 9999) ↔
      daysBeforeYear 0 ≤ days ∧ days < daysBeforeYear 10000 := by
  have hbounds := year_of_days_bounds days
  unfold daysBeforeYear at *
  omega

/-! ## Months -/

/-- The number of days in months. -/
def daysIn (lengths : List Nat) : Nat := lengths.foldl (· + ·) 0

theorem days_in_cons (length : Nat) (lengths : List Nat) :
    daysIn (length :: lengths) = length + daysIn lengths := by
  have hstart (start : Nat) : lengths.foldl (· + ·) start = start + daysIn lengths := by
    unfold daysIn
    induction lengths generalizing start with
    | nil => rfl
    | cons first lengths ih =>
        rw [List.foldl_cons, List.foldl_cons, ih (start + first), ih (0 + first)]
        omega
  rw [daysIn, List.foldl_cons, hstart, Nat.zero_add]

/-- The months of a year have its days. -/
theorem days_in_year (year : Int) : daysIn (monthLengths year) = yearLength year := by
  unfold monthLengths yearLength
  split <;> rfl

/-- A day of the months lies in one of them, at a day of that month. -/
theorem month_of_index {lengths : List Nat} {index : Nat} (h : index < daysIn lengths)
    (first : Nat) :
    ∃ skipped day, monthOfIndex first index lengths = (first + skipped, day) ∧
      skipped < lengths.length ∧ 1 ≤ day ∧ day ≤ lengths.getD skipped 0 ∧
      daysIn (lengths.take skipped) + day = index + 1 := by
  induction lengths generalizing index first with
  | nil => exact absurd h (Nat.not_lt_zero index)
  | cons length lengths ih =>
      rw [days_in_cons] at h
      unfold monthOfIndex
      split
      · rename_i hless
        refine ⟨0, index + 1, rfl, Nat.succ_pos _, Nat.le_add_left 1 index, hless, ?_⟩
        rw [List.take_zero]
        exact Nat.zero_add _
      · rename_i hmore
        obtain ⟨skipped, day, hmonth, hskipped, hday, hlast, hsum⟩ :=
          ih (show index - length < daysIn lengths by omega) (first + 1)
        refine ⟨skipped + 1, day, ?_, Nat.succ_lt_succ hskipped, hday, hlast, ?_⟩
        · rw [hmonth, Nat.add_right_comm, Nat.add_assoc]
        · rw [List.take_succ_cons, days_in_cons]
          omega

/-- A month has 31 days at most. -/
theorem month_length_le (year : Int) (month : Nat) : monthLength year month ≤ 31 := by
  have hall : ∀ length ∈ monthLengths year, length ≤ 31 := by
    unfold monthLengths
    split <;> decide
  unfold monthLength
  split
  · exact Nat.zero_le 31
  · rw [List.getD_eq_getElem?_getD]
    cases hmonth : (monthLengths year)[month - 1]? with
    | none => exact Nat.zero_le 31
    | some length => exact hall length (List.mem_of_getElem? hmonth)

/-! ## Dates -/

/-- The date of a day exists and is that of the day. -/
theorem date_of_day (days : Int) :
    (Date.ofDays days).isValid = true ∧ (Date.ofDays days).toDays = days := by
  obtain ⟨hlow, hhigh⟩ := year_of_days_bounds days
  rw [days_before_next_year, ← days_in_year] at hhigh
  obtain ⟨skipped, day, hmonth, hskipped, hday, hlast, hsum⟩ :=
    month_of_index (show (days - daysBeforeYear (yearOfDays days)).toNat <
      daysIn (monthLengths (yearOfDays days)) by omega) 1
  have hdate : Date.ofDays days = ⟨yearOfDays days, 1 + skipped, day⟩ := by
    simp only [Date.ofDays, hmonth]
  have htwelve : (monthLengths (yearOfDays days)).length = 12 := rfl
  rw [htwelve] at hskipped
  have hlength : monthLength (yearOfDays days) (1 + skipped) =
      (monthLengths (yearOfDays days)).getD skipped 0 := by
    rw [monthLength, if_neg (by omega), Nat.add_sub_cancel_left]
  have hbefore : daysBeforeMonth (yearOfDays days) (1 + skipped) =
      daysIn ((monthLengths (yearOfDays days)).take skipped) := by
    rw [daysBeforeMonth, Nat.add_sub_cancel_left, daysIn]
  rw [hdate]
  constructor
  · simp only [Date.isValid, hlength, Bool.and_eq_true, decide_eq_true_eq]
    omega
  · simp only [Date.toDays, hbefore]
    omega

end Rewards.Time
