import Mathlib.Data.List.TakeWhile
import Rewards.Text.Split

/-!
# Texts with separators

Splitting at the first or the last separator gives back what was put around it, and so does
splitting at every separator.
-/

namespace Rewards.Text

variable {separator : Char} {cs before after : List Char}

/-- A text is split at the first separator. -/
theorem split_first_eq_some_iff :
    splitFirst? separator cs = some (before, after) ↔
      cs = before ++ separator :: after ∧ separator ∉ before := by
  constructor
  · intro h
    unfold splitFirst? at h
    split at h
    · cases h
    · rename_i found rest hdrop
      simp only [Option.some.injEq, Prod.mk.injEq] at h
      obtain ⟨rfl, rfl⟩ := h
      have hfound : found = separator := by
        have hhead := List.head_dropWhile_not (· != separator) (l := cs) (by simp [hdrop])
        simpa [hdrop] using hhead
      refine ⟨?_, fun hmem => by simpa using List.mem_takeWhile_imp hmem⟩
      rw [← hfound, ← hdrop, hfound, List.takeWhile_append_dropWhile]
  · rintro ⟨rfl, hnone⟩
    have hkept : ∀ c ∈ before, (c != separator) = true := by
      intro c hc
      rw [bne_iff_ne]
      rintro rfl
      exact hnone hc
    unfold splitFirst?
    rw [List.dropWhile_append_of_pos hkept, List.takeWhile_append_of_pos hkept]
    simp

/-- A text is split at the last separator. -/
theorem split_last_eq_some_iff :
    splitLast? separator cs = some (before, after) ↔
      cs = before ++ separator :: after ∧ separator ∉ after := by
  have hreverse (x y : List Char) :
      cs.reverse = x ++ separator :: y ↔ cs = y.reverse ++ separator :: x.reverse := by
    rw [List.reverse_eq_iff]
    simp
  simp only [splitLast?, Option.map_eq_some_iff, Prod.exists, split_first_eq_some_iff, hreverse,
    Prod.mk.injEq]
  constructor
  · rintro ⟨x, y, ⟨hcs, hnone⟩, rfl, rfl⟩
    exact ⟨hcs, by simpa using hnone⟩
  · rintro ⟨hcs, hnone⟩
    exact ⟨after.reverse, before.reverse, by simpa using ⟨hcs, hnone⟩, by simp, by simp⟩

/-- A text is split as a list is. -/
theorem split_eq_split_on (separator : Char) (cs : List Char) :
    split separator cs = cs.splitOn separator := by
  induction cs with
  | nil => rfl
  | cons c cs ih =>
      rw [split, ih, List.splitOn_cons_eq_if_modifyHead]
      cases hpieces : cs.splitOn separator with
      | nil => exact absurd hpieces (List.splitOn_ne_nil separator cs)
      | cons first pieces => simp

/-- A text without separators is one piece. -/
theorem split_of_not_mem (h : separator ∉ cs) : split separator cs = [cs] := by
  rw [split_eq_split_on, List.splitOn_eq_singleton h]

/-- The pieces around a separator are those before it and those after it. -/
theorem split_separator (separator : Char) (before after : List Char) :
    split separator (before ++ separator :: after) =
      split separator before ++ split separator after := by
  simp only [split_eq_split_on, List.splitOn_append_cons_self]

/-- The first piece ends before the first separator. -/
theorem split_append (h : separator ∉ before) :
    split separator (before ++ separator :: after) = before :: split separator after := by
  rw [split_separator, split_of_not_mem h, List.singleton_append]

/-- What follows without separators belongs to the last piece. -/
theorem split_last_piece (separator : Char) (cs : List Char) :
    ∃ pieces last, split separator cs = pieces ++ [last] ∧
      ∀ more, separator ∉ more → split separator (cs ++ more) = pieces ++ [last ++ more] := by
  induction cs with
  | nil => exact ⟨[], [], rfl, fun more hmore => split_of_not_mem hmore⟩
  | cons c cs ih =>
      obtain ⟨pieces, last, hsplit, hmore⟩ := ih
      by_cases hc : c = separator
      · refine ⟨[] :: pieces, last, ?_, fun more hnone => ?_⟩
        · rw [split, if_pos hc, hsplit, List.cons_append]
        · rw [List.cons_append, split, if_pos hc, hmore more hnone, List.cons_append]
      · cases pieces with
        | nil =>
            refine ⟨[], c :: last, ?_, fun more hnone => ?_⟩
            · rw [split, if_neg hc, hsplit]
              rfl
            · rw [List.cons_append, split, if_neg hc, hmore more hnone]
              rfl
        | cons first pieces =>
            refine ⟨(c :: first) :: pieces, last, ?_, fun more hnone => ?_⟩
            · rw [split, if_neg hc, hsplit]
              rfl
            · rw [List.cons_append, split, if_neg hc, hmore more hnone]
              rfl

/-- There is no separator in a piece. -/
theorem not_mem_of_split {piece : List Char} (h : piece ∈ split separator cs) :
    separator ∉ piece := by
  induction cs generalizing piece with
  | nil =>
      obtain rfl := List.mem_singleton.mp h
      exact List.not_mem_nil
  | cons c cs ih =>
      rw [split] at h
      split at h
      · rcases List.mem_cons.mp h with rfl | h
        · exact List.not_mem_nil
        · exact ih h
      · rename_i hother
        cases hpieces : split separator cs with
        | nil =>
            rw [hpieces] at h
            obtain rfl := List.mem_singleton.mp h
            exact fun hmem => hother (List.mem_singleton.mp hmem).symm
        | cons first pieces =>
            rw [hpieces] at h ih
            rcases List.mem_cons.mp h with rfl | h
            · rw [List.mem_cons, not_or]
              exact ⟨fun hc => hother hc.symm, ih List.mem_cons_self⟩
            · exact ih (List.mem_cons_of_mem _ h)

/-- The pieces are the texts without separators that are the text again when they are joined. -/
theorem split_eq_iff {pieces : List (List Char)} :
    split separator cs = pieces ↔
      pieces ≠ [] ∧ (∀ piece ∈ pieces, separator ∉ piece) ∧
        [separator].intercalate pieces = cs := by
  constructor
  · rintro rfl
    refine ⟨?_, fun piece => not_mem_of_split, ?_⟩
    · rw [split_eq_split_on]
      exact List.splitOn_ne_nil separator cs
    · rw [split_eq_split_on, List.intercalate_splitOn]
  · rintro ⟨hne, hpieces, rfl⟩
    rw [split_eq_split_on, List.splitOn_intercalate separator hpieces hne]

end Rewards.Text
