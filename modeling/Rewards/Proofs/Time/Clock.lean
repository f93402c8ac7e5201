import Rewards.Proofs.Json.Results
import Rewards.Proofs.Time.Timestamps

/-!
# Instants of a clock

A clock shows a leap second as the second 60 of a minute, so only the last second of a minute can be
one. Whatever text is read as an instant gives an instant of a clock, `clock_of_read`, so does every
document, `yields_reader`, and going on from one leads to others, `clock_of_add`. An instant whose
leap second is not the last of a minute is written as the second that follows, `zulu_on_clock`.
-/

namespace Rewards.Instant

open Time

/-! ## Instants that are read -/

/-- The parts of a time, with an offset of whole minutes, are those of a clock. -/
theorem clock_of_parts {date : Date} {hour minute second nano : Nat} {offset : Int} {t : Instant}
    (hoffset : offset % 60 = 0) (hparts : ofParts? date hour minute second nano offset = some t) :
    t.IsClockTime := by
  rw [ofParts?, Option.dite_none_right_eq_some] at hparts
  obtain ⟨hvalid, hread⟩ := hparts
  rw [Option.ite_none_right_eq_some] at hread
  obtain ⟨-, hsame⟩ := hread
  cases hsame
  unfold IsClockTime
  dsimp only
  by_cases hleap : second = 60
  · right
    rw [if_pos hleap]
    omega
  · left
    rw [if_neg hleap, Nat.add_zero]
    exact hvalid.2.2.2.2.1

/-- An offset is one of whole minutes. -/
theorem minutes_of_offset {cs rest : List Char} {offset : Int}
    (h : readOffset cs = some (offset, rest)) : offset % 60 = 0 := by
  simp only [readOffset, Option.bind_eq_bind, Option.bind_eq_some_iff] at h
  obtain ⟨⟨hours, afterHours⟩, -, ⟨minutes, afterMinutes⟩, -, h⟩ := h
  dsimp only at h
  split at h
  · cases h
  · cases h
    omega

/-- A zone is ahead of universal time by whole minutes. -/
theorem minutes_of_zone {cs rest : List Char} {offset : Int}
    (h : readZone cs = some (offset, rest)) : offset % 60 = 0 := by
  have hbehind {rest more : List Char}
      (h : (readOffset more).map (fun found => (-found.1, found.2)) = some (offset, rest)) :
      offset % 60 = 0 := by
    obtain ⟨⟨ahead, after⟩, hahead, hsame⟩ := Option.map_eq_some_iff.mp h
    have hminutes := minutes_of_offset hahead
    cases hsame
    omega
  unfold readZone at h
  split at h
  · cases h
    rfl
  split at h
  · cases h
    rfl
  · cases h
    rfl
  · exact minutes_of_offset h
  · exact hbehind h
  · exact hbehind h
  · cases h

/-- A text is read as an instant of a clock. -/
theorem clock_of_read {s : String} {t : Instant} (h : read s = some t) : t.IsClockTime := by
  simp only [read, readChars, Option.bind_eq_bind, Option.bind_eq_some_iff] at h
  obtain ⟨_, -, _, -, _, -, _, -, _, -, _, -, _, -, _, -, _, -, _, -, _, -, _, -, ⟨offset, rest⟩,
    hzone, h⟩ := h
  split at h
  · exact clock_of_parts (minutes_of_zone hzone) h
  · cases h

/-- Going on from an instant of a clock leads to another one. -/
theorem clock_of_add {t later : Instant} {nanos : Int} (h : t.IsClockTime)
    (hadd : t.add? nanos = some later) : later.IsClockTime := by
  unfold add? at hadd
  split at hadd
  · rename_i hleap
    rw [Option.ite_none_right_eq_some] at hadd
    obtain ⟨-, hsame⟩ := hadd
    cases hsame
    -- The leap second goes on, and stays the last of its minute.
    exact .inr (h.resolve_left (Nat.not_lt_of_le hleap.1))
  · dsimp only at hadd
    rw [Option.ite_none_right_eq_some] at hadd
    obtain ⟨-, hsame⟩ := hadd
    cases hsame
    left
    simp only [nanosPerSecond]
    omega

/-- Documents give instants of a clock. -/
theorem yields_reader : Json.Reader.Yields reader IsClockTime := by
  refine Json.Reader.yields_after fun s => ?_
  split
  · rename_i t hread
    exact Json.Reader.yields_pure (clock_of_read hread)
  · exact Json.Reader.yields_malformed _

/-! ## Instants that are written -/

/-- The instant that a clock shows: a leap second that is not the last of a minute is shown as the
second that follows. -/
def onClock (t : Instant) : Instant :=
  if nanosPerSecond ≤ t.nano ∧ t.second % 60 ≠ 59 then
    ⟨t.second + 1, t.nano - nanosPerSecond, Nat.lt_of_le_of_lt (Nat.sub_le _ _) t.nano_lt⟩
  else t

/-- It is one of a clock. -/
theorem on_clock_is_clock (t : Instant) : t.onClock.IsClockTime := by
  have hnano := t.nano_lt
  unfold onClock IsClockTime nanosPerSecond at *
  split
  · left
    dsimp only
    omega
  · omega

/-- An instant of a clock is the one that is shown. -/
theorem on_clock_eq_iff (t : Instant) : t.onClock = t ↔ t.IsClockTime := by
  constructor
  · exact fun h => h ▸ t.on_clock_is_clock
  · intro h
    unfold onClock IsClockTime at *
    rw [if_neg]
    omega

/-- The second that follows is in the same minute. -/
theorem second_on_clock {t : Instant} (hleap : nanosPerSecond ≤ t.nano ∧ t.second % 60 ≠ 59) :
    t.onClock.second / 60 = t.second / 60 ∧ t.onClock.second % 60 = t.second % 60 + 1 ∧
      t.onClock.nano + nanosPerSecond = t.nano := by
  rw [onClock, if_pos hleap]
  dsimp only
  omega

/-- The text is that of the instant that is shown. -/
theorem zulu_on_clock (t : Instant) : t.onClock.toZuluText = t.toZuluText := by
  by_cases hleap : nanosPerSecond ≤ t.nano ∧ t.second % 60 ≠ 59
  · obtain ⟨hminute, hsecond, hnano⟩ := second_on_clock hleap
    have hday : t.onClock.second / 86400 = t.second / 86400 := by omega
    have hhour : (t.onClock.second % 86400).toNat / 3600 = (t.second % 86400).toNat / 3600 := by
      omega
    have hminutes : (t.onClock.second % 86400).toNat / 60 % 60 =
        (t.second % 86400).toNat / 60 % 60 := by omega
    have hseconds : (t.onClock.second % 86400).toNat % 60 + t.onClock.nano / nanosPerSecond =
        (t.second % 86400).toNat % 60 + t.nano / nanosPerSecond := by
      unfold nanosPerSecond at *
      omega
    have hrest : t.onClock.nano % nanosPerSecond = t.nano % nanosPerSecond := by
      rw [← hnano, Nat.add_mod_right]
    simp only [toZuluText, localChars, hday, hhour, hminutes, hseconds, hrest]
  · rw [onClock, if_neg hleap]

/-- The instant that is shown has the same year. -/
theorem short_year_on_clock {t : Instant} (hyear : t.HasShortYear) : t.onClock.HasShortYear := by
  by_cases hleap : nanosPerSecond ≤ t.nano ∧ t.second % 60 ≠ 59
  · obtain ⟨hminute, -, -⟩ := second_on_clock hleap
    have hday : t.onClock.second / 86400 = t.second / 86400 := by omega
    rw [HasShortYear, year, hday]
    exact hyear
  · rwa [onClock, if_neg hleap]

/-- An instant is read from a document as a clock shows it. -/
theorem takes_reader_on_clock {t : Instant} (hyear : t.HasShortYear) :
    Json.Reader.Takes reader t.toJson.chars t.onClock := by
  have htakes := takes_reader (short_year_on_clock hyear) t.on_clock_is_clock
  rwa [toJson, zulu_on_clock] at htakes

end Rewards.Instant
