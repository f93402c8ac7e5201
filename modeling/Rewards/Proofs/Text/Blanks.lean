import Mathlib.Data.List.TakeWhile
import Rewards.Text.Blank

/-!
# Blanks around a text

Stripping takes the blanks off both ends of a text and nothing else. So blanks around a text make no
difference to what is read of it, `trim_surrounded`.
-/

namespace Rewards.Text

/-- Nothing is left of blanks. -/
theorem strip_left_blanks {blanks : List Char} (h : blanks.all isBlank = true) :
    stripLeft blanks = [] :=
  List.dropWhile_eq_nil_iff.mpr (List.all_eq_true.mp h)

/-- If anything of a text is left, what follows it is left too. -/
theorem strip_left_append (cs later : List Char) :
    stripLeft (cs ++ later) =
      if (stripLeft cs).isEmpty then stripLeft later else stripLeft cs ++ later :=
  List.dropWhile_append

/-- Blanks around a text are stripped. -/
theorem strip_surrounded {before later : List Char} (hbefore : before.all isBlank = true)
    (hlater : later.all isBlank = true) (cs : List Char) :
    strip (before ++ cs ++ later) = strip cs := by
  have hfront : stripLeft (before ++ (cs ++ later)) = stripLeft (cs ++ later) := by
    rw [strip_left_append, strip_left_blanks hbefore]
    rfl
  rw [strip, strip, List.append_assoc, hfront, strip_left_append]
  cases stripLeft cs with
  | nil =>
      rw [List.isEmpty_nil, if_pos rfl, strip_left_blanks hlater]
  | cons c rest =>
      have hback : stripLeft later.reverse = [] :=
        strip_left_blanks (by rwa [List.all_reverse])
      rw [List.isEmpty_cons, if_neg Bool.false_ne_true, List.reverse_append, strip_left_append,
        hback]
      rfl

/-- A text is what is left of it when it is stripped, with blanks around. -/
theorem strip_decompose (cs : List Char) :
    ∃ before later, before.all isBlank = true ∧ later.all isBlank = true ∧
      cs = before ++ strip cs ++ later := by
  have hleft (cs : List Char) :
      ∃ before, before.all isBlank = true ∧ cs = before ++ stripLeft cs :=
    ⟨cs.takeWhile isBlank, List.all_takeWhile, List.takeWhile_append_dropWhile.symm⟩
  obtain ⟨before, hbefore, hfront⟩ := hleft cs
  obtain ⟨later, hlater, hback⟩ := hleft (stripLeft cs).reverse
  refine ⟨before, later.reverse, hbefore, by rwa [List.all_reverse], ?_⟩
  rw [List.append_assoc, strip, ← List.reverse_append, ← hback, List.reverse_reverse]
  exact hfront

/-- A text without blanks is stripped of nothing. -/
theorem strip_of_no_blanks {cs : List Char} (h : cs.all (!isBlank ·) = true) : strip cs = cs := by
  have hkept (cs : List Char) (h : cs.all (!isBlank ·) = true) : stripLeft cs = cs := by
    cases cs with
    | nil => rfl
    | cons c rest =>
        have hc : isBlank c = false := by simpa using (List.all_eq_true.mp h) c (by simp)
        rw [stripLeft, List.dropWhile_cons_of_neg (by simp [hc])]
  rw [strip, hkept cs h, hkept cs.reverse (by rwa [List.all_reverse]), List.reverse_reverse]

/-- Nothing is left of blanks only. -/
theorem strip_eq_nil_iff {cs : List Char} : strip cs = [] ↔ cs.all isBlank = true := by
  constructor
  · intro h
    obtain ⟨before, later, hbefore, hlater, hcs⟩ := strip_decompose cs
    rw [hcs, h, List.append_nil, List.all_append, hbefore, hlater]
    rfl
  · intro h
    have hnone : ([] : List Char).all isBlank = true := rfl
    have hempty := strip_surrounded h hnone []
    rwa [List.append_nil, List.append_nil] at hempty

/-- Blanks around a text are trimmed. -/
theorem trim_surrounded {before later : String} (hbefore : before.toList.all isBlank = true)
    (hlater : later.toList.all isBlank = true) (text : String) :
    trim (before ++ text ++ later) = trim text := by
  rw [trim, trim, String.toList_append, String.toList_append, strip_surrounded hbefore hlater]

/-- A digit is not a blank. -/
theorem not_blank_of_digit {c : Char} (h : c.isDigit = true) : isBlank c = false := by
  have hrange : 48 ≤ c.toNat ∧ c.toNat ≤ 57 := by
    simp only [Char.isDigit, Bool.and_eq_true, decide_eq_true_eq] at h
    exact h
  simp only [isBlank, Bool.or_eq_false_iff, Bool.and_eq_false_iff, beq_eq_false_iff_ne,
    decide_eq_false_iff_not]
  omega

end Rewards.Text
