import Rewards.Proofs.Json.Strings
import Rewards.Proofs.Text.Blanks
import Rewards.Proofs.Text.Digits
import Rewards.Proofs.Time.Calendar
import Rewards.Time.Json

/-!
# Instants as text

The text of an instant in the years from 0 to 9999 is read as this instant, `read_zulu`, with every
nanosecond and with leap seconds.
-/

namespace Rewards.Instant

open Time
open Text (digit_of_padded isBlank length_padded padded_cons paddedDigits stripLeft value_padded)

/-! ## Numbers with leading zeros -/

section Padded

variable {length n : Nat} (most : Nat) {c : Char} (rest : List Char)

/-- A padded number and what follows it have no blanks before them. -/
theorem strip_padded :
    stripLeft (paddedDigits length n ++ rest) = paddedDigits length n ++ rest := by
  obtain ⟨d, ds, hdigits, hd⟩ := padded_cons length n
  have hblank := Text.not_blank_of_digit hd
  rw [hdigits, List.cons_append, stripLeft, List.dropWhile_cons_of_neg (by simp [hblank])]

/-- The digits up to a character that is none. -/
theorem take_digits (hc : c.isDigit = false) (hmost : (paddedDigits length n).length ≤ most) :
    ((paddedDigits length n ++ c :: rest).take most).takeWhile Char.isDigit =
      paddedDigits length n := by
  obtain ⟨more, rfl⟩ := Nat.exists_eq_add_of_le hmost
  have hstop : ((c :: rest).take more).takeWhile Char.isDigit = [] := by
    cases more with
    | zero => rfl
    | succ more => rw [List.take_succ_cons, List.takeWhile_cons_of_neg (by simp [hc])]
  rw [List.take_length_add_append, List.takeWhile_append_of_pos fun d hd => digit_of_padded hd,
    hstop, List.append_nil]

/-- A padded number is read. -/
theorem read_number_padded (hc : c.isDigit = false) (hlength : 0 < length) (hmost : length ≤ most)
    (h : n < Nat.pow 10 length) :
    readNumber most (paddedDigits length n ++ c :: rest) = some (n, c :: rest) := by
  have hdigits := take_digits most rest hc ((length_padded hlength h).trans_le hmost)
  have hnonempty : (paddedDigits length n).isEmpty = false := by
    obtain ⟨d, ds, hcons, -⟩ := padded_cons length n
    rw [hcons, List.isEmpty_cons]
  unfold readNumber
  simp only [hdigits, hnonempty, Bool.false_eq_true, if_false, value_padded, List.drop_left]

/-- A padded number is read as a part of a date or of a time. -/
theorem read_part_padded (hc : c.isDigit = false) (hlength : 0 < length) (hmost : length ≤ most)
    (h : n < Nat.pow 10 length) :
    readPart most (paddedDigits length n ++ c :: rest) = some (n, c :: rest) := by
  rw [readPart, strip_padded, read_number_padded most rest hc hlength hmost h]

end Padded

/-- A mark is read. -/
theorem read_mark_cons {c : Char} (hc : isBlank c = false) (rest : List Char) :
    readMark c (c :: rest) = some rest := by
  rw [readMark, stripLeft, List.dropWhile_cons_of_neg (by simp [hc])]
  exact if_pos rfl

/-- A year of four digits is read. -/
theorem read_year_padded {year : Nat} (h : year < 10000) {c : Char} (hc : c.isDigit = false)
    (rest : List Char) :
    readYear (paddedDigits 4 year ++ c :: rest) = some ((year : Int), c :: rest) := by
  have hread := read_number_padded 4 rest hc (by decide) (Nat.le_refl 4) h
  have hsign (d : Char) (hd : d.isDigit = false) (more : List Char) :
      paddedDigits 4 year ++ c :: rest ≠ d :: more := by
    obtain ⟨first, ds, hdigits, hfirst⟩ := padded_cons 4 year
    rw [hdigits, List.cons_append]
    intro heq
    obtain ⟨rfl, -⟩ := List.cons.inj heq
    rw [hd] at hfirst
    cases hfirst
  unfold readYear
  rw [strip_padded]
  split
  · rename_i more heq
    exact absurd heq (hsign '-' rfl more)
  · rename_i more heq
    exact absurd heq (hsign '+' rfl more)
  · rw [hread]
    rfl

/-- The digits of a fraction are read, and the missing ones are zeros. -/
theorem read_fraction_padded {length n : Nat} (hlength : 0 < length) (hmost : length ≤ 9)
    (h : n < Nat.pow 10 length) :
    readFraction ('.' :: (paddedDigits length n ++ ['Z'])) =
      some (n * Nat.pow 10 (9 - length), ['Z']) := by
  have hpadded := length_padded hlength h
  have hread := read_number_padded 9 (c := 'Z') [] rfl hlength hmost h
  have hdigits := take_digits 9 (c := 'Z') [] rfl (hpadded.trans_le hmost)
  simp only [readFraction, hread, hdigits, hpadded]
  rfl

/-- A fraction of a second is read. -/
theorem read_fraction {nano : Nat} (h : nano < nanosPerSecond) :
    readFraction (fractionChars nano ++ ['Z']) = some (nano, ['Z']) := by
  have hsix : Nat.pow 10 6 = 1000000 := rfl
  have hthree : Nat.pow 10 3 = 1000 := rfl
  have hnine : Nat.pow 10 9 = 1000000000 := rfl
  unfold nanosPerSecond at h
  unfold fractionChars
  split
  · rename_i hzero
    rw [hzero]
    rfl
  · split
    · rename_i hmillis
      rw [List.cons_append, read_fraction_padded (by decide) (by decide) (by omega), hsix,
        Nat.div_mul_cancel (Nat.dvd_of_mod_eq_zero hmillis)]
    · split
      · rename_i hmicros
        rw [List.cons_append, read_fraction_padded (by decide) (by decide) (by omega), hthree,
          Nat.div_mul_cancel (Nat.dvd_of_mod_eq_zero hmicros)]
      · rw [List.cons_append, read_fraction_padded (by decide) (by decide) (by omega)]
        exact congrArg (fun n => some (n, ['Z'])) (Nat.mul_one nano)

/-! ## Whole instants -/

/-- The calendar year of an instant. -/
def year (t : Instant) : Int := (Date.ofDays (t.second / 86400 + epochDays)).year

/-- The instant is written with four digits for its year. -/
def HasShortYear (t : Instant) : Prop := 0 ≤ t.year ∧ t.year ≤ 9999

/-- The instant is that of a clock: a leap second is the last second of a minute. -/
def IsClockTime (t : Instant) : Prop := t.nano < nanosPerSecond ∨ t.second % 60 = 59

/-- An instant in a short year lies on the time line. -/
theorem HasShortYear.range {t : Instant} (h : t.HasShortYear) : isInRange t.second = true := by
  have hyears := (year_of_days_range _).mp h
  have hfirst : daysBeforeYear 0 = 0 := rfl
  have hlast : daysBeforeYear 10000 = 3652425 := rfl
  have hmin : minSecond = -8334601228800 := by decide
  have hmax : maxSecond = 8210266876799 := by decide
  simp only [isInRange, Bool.and_eq_true, decide_eq_true_eq, epochDays] at *
  omega

/-- The parts of an instant make the instant. -/
theorem of_parts {t : Instant} (hyear : t.HasShortYear) (hclock : t.IsClockTime) :
    ofParts? (Date.ofDays (t.second / 86400 + epochDays)) ((t.second % 86400).toNat / 3600)
      ((t.second % 86400).toNat / 60 % 60)
      ((t.second % 86400).toNat % 60 + t.nano / nanosPerSecond) (t.nano % nanosPerSecond) 0 =
      some t := by
  obtain ⟨hvalid, hdays⟩ := date_of_day (t.second / 86400 + epochDays)
  have hnano := t.nano_lt
  -- The second 60 stands for a leap second, and only for one.
  have hleap : (t.second % 86400).toNat % 60 + t.nano / nanosPerSecond = 60 ↔
      nanosPerSecond ≤ t.nano := by
    unfold IsClockTime nanosPerSecond at *
    omega
  unfold ofParts?
  rw [dif_pos]
  · simp only [hleap, hdays]
    have hsecond : (t.second / 86400 + epochDays - epochDays) * 86400 +
        (((t.second % 86400).toNat / 3600 : Nat) * 3600 +
          ((t.second % 86400).toNat / 60 % 60 : Nat) * 60 +
          ((if nanosPerSecond ≤ t.nano then 59
            else (t.second % 86400).toNat % 60 + t.nano / nanosPerSecond : Nat) : Int)) =
          t.second := by
      unfold IsClockTime nanosPerSecond at *
      split <;> omega
    have hrest : t.nano % nanosPerSecond + (if nanosPerSecond ≤ t.nano then nanosPerSecond else 0) =
        t.nano := by
      unfold nanosPerSecond
      split <;> omega
    simp only [hsecond, hrest, Int.sub_zero, hyear.range, Bool.and_self, if_true]
  · refine ⟨hvalid, by omega, by omega, ?_, Nat.mod_lt _ (by decide), by decide⟩
    unfold IsClockTime nanosPerSecond at *
    omega

/-- The mark that follows the seconds is no digit. -/
theorem fraction_mark (nano : Nat) :
    ∃ c rest, fractionChars nano ++ ['Z'] = c :: rest ∧ c.isDigit = false := by
  unfold fractionChars
  split_ifs <;> exact ⟨_, _, rfl, rfl⟩

/-- What is read leads on to what follows it. -/
theorem go_on {α β : Type} {x : Option α} {f : α → Option β} {a : α} {b : β} (hx : x = some a)
    (hf : f a = some b) : x.bind f = some b :=
  Option.bind_eq_some_iff.mpr ⟨a, hx, hf⟩

/-- The text of an instant with the letter of universal time is read as the instant. -/
theorem read_zulu {t : Instant} (hyear : t.HasShortYear) (hclock : t.IsClockTime) :
    read t.toZuluText = some t := by
  have hparts := of_parts hyear hclock
  have hvalid := (date_of_day (t.second / 86400 + epochDays)).1
  have hnano : t.nano / nanosPerSecond < 2 := by
    have hbound := t.nano_lt
    unfold nanosPerSecond
    omega
  obtain ⟨hlow, hhigh⟩ : 0 ≤ (Date.ofDays (t.second / 86400 + epochDays)).year ∧
      (Date.ofDays (t.second / 86400 + epochDays)).year ≤ 9999 := hyear
  rw [read, toZuluText, String.toList_ofList, localChars]
  generalize Date.ofDays (t.second / 86400 + epochDays) = date at *
  obtain ⟨year, month, day⟩ := date
  simp only [Date.isValid, Bool.and_eq_true, decide_eq_true_eq] at hvalid
  have hlength := month_length_le year month
  obtain ⟨year, rfl⟩ := Int.eq_ofNat_of_zero_le hlow
  obtain ⟨c, rest, hmark, hc⟩ := fraction_mark (t.nano % nanosPerSecond)
  have hfraction := read_fraction (Nat.mod_lt t.nano (show 0 < nanosPerSecond by decide))
  have htwo : Nat.pow 10 2 = 100 := rfl
  have htoday := Int.emod_lt_of_pos t.second (show (0 : Int) < 86400 by decide)
  rw [yearChars, if_pos ⟨hlow, hhigh⟩, Int.toNat_natCast]
  simp only [List.append_assoc, List.cons_append]
  rw [hmark] at hfraction ⊢
  dsimp only at hlow hhigh
  -- The parts are read one after the other, each up to the mark that follows it.
  refine go_on (read_year_padded (by omega) rfl _) ?_
  refine go_on (read_mark_cons rfl _) ?_
  refine go_on (read_part_padded _ _ rfl (by decide) (by decide) (by omega)) ?_
  refine go_on (read_mark_cons rfl _) ?_
  refine go_on (read_part_padded _ _ rfl (by decide) (by decide) (by omega)) ?_
  refine go_on (x := readDivider _) rfl ?_
  refine go_on (read_part_padded _ _ rfl (by decide) (by decide) (by omega)) ?_
  refine go_on (read_mark_cons rfl _) ?_
  refine go_on (read_part_padded _ _ rfl (by decide) (by decide) (by omega)) ?_
  refine go_on (read_mark_cons rfl _) ?_
  refine go_on (read_part_padded _ _ hc (by decide) (by decide) (by omega)) ?_
  refine go_on hfraction ?_
  exact hparts

/-! ## In documents -/

open Json (IsPlain IsPlainText)

/-- Digits are plain. -/
theorem plain_of_digit {c : Char} (h : c.isDigit = true) : IsPlain c := by
  rw [Char.isDigit_iff_toNat] at h
  have hzero : '0'.toNat = 48 := rfl
  have hnine : '9'.toNat = 57 := rfl
  refine ⟨by omega, by omega, ?_, ?_⟩
  · rintro rfl
    exact absurd h.1 (by decide)
  · rintro rfl
    exact absurd h.2 (by decide)

/-- An instant is written in digits and a few marks. -/
theorem plain_zulu (t : Instant) : IsPlainText t.toZuluText := by
  have hpadded (length n : Nat) : ∀ c ∈ paddedDigits length n, IsPlain c :=
    fun c hc => plain_of_digit (digit_of_padded hc)
  have hyear (year : Int) : ∀ c ∈ yearChars year, IsPlain c := by
    unfold yearChars
    split_ifs
    · exact hpadded _ _
    · exact List.forall_mem_cons.mpr ⟨by decide, hpadded _ _⟩
    · exact List.forall_mem_cons.mpr ⟨by decide, hpadded _ _⟩
  have hfraction (nano : Nat) : ∀ c ∈ fractionChars nano, IsPlain c := by
    unfold fractionChars
    split_ifs
    · simp
    · exact List.forall_mem_cons.mpr ⟨by decide, hpadded _ _⟩
    · exact List.forall_mem_cons.mpr ⟨by decide, hpadded _ _⟩
    · exact List.forall_mem_cons.mpr ⟨by decide, hpadded _ _⟩
  have hhyphen : IsPlain '-' := by decide
  have hletter : IsPlain 'T' := by decide
  have hcolon : IsPlain ':' := by decide
  have hzone : IsPlain 'Z' := by decide
  unfold IsPlainText toZuluText localChars
  rw [String.toList_ofList]
  simp only [List.forall_mem_append, List.forall_mem_cons, hhyphen, hletter, hcolon, true_and]
  exact ⟨⟨⟨⟨⟨⟨⟨hyear _, hpadded _ _⟩, hpadded _ _⟩, hpadded _ _⟩, hpadded _ _⟩, hpadded _ _⟩,
    hfraction _⟩, hzone, nofun⟩

/-- An instant is read from a document as it was written. -/
theorem takes_reader {t : Instant} (hyear : t.HasShortYear) (hclock : t.IsClockTime) :
    Json.Reader.Takes reader t.toJson.chars t := by
  refine (Json.Reader.takes_text t.toZuluText _).map ?_
  rw [read_zulu hyear hclock]
  exact Json.Reader.takes_pure t

end Rewards.Instant
