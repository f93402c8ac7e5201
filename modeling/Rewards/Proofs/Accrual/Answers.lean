import Mathlib.Data.Nat.Digits.Defs
import Rewards.Accrual.Client
import Rewards.Proofs.Decimal.Value
import Rewards.Proofs.Http.Headers
import Rewards.Proofs.Text.Digits

/-!
# What the answers of the accrual system mean

The accrual system answers with a status, headers and a body, or not at all. `Earns`, `Rejects`,
`Postpones` and `Pauses` describe the answers that the protocol knows, by their bytes where only
bytes matter; everything else is a fault of the accrual system. The theorems say what the client
makes of each kind.
-/

namespace Rewards.Accrual

open Http (IsVisible all_blanks all_digits blank_iff character character_to_nat digit_iff
  first_value_eq_some_iff plus_iff visible_of_blank visible_of_digit visible_text_eq_some_iff)
open Text (natural_eq_some_iff)

/-! ## The time to wait -/

/-- The bytes write a number: decimal digits, perhaps with a plus sign before them, and spaces and
tabs around. -/
inductive IsWhole : List UInt8 → Nat → Prop where
  | intro (before sign digits later : List UInt8) :
      (∀ b ∈ before, b = 9 ∨ b = 32) → sign = [] ∨ sign = [43] →
      digits ≠ [] → (∀ b ∈ digits, 48 ≤ b ∧ b ≤ 57) → (∀ b ∈ later, b = 9 ∨ b = 32) →
      IsWhole (before ++ (sign ++ digits) ++ later)
        (Nat.ofDigits 10 (digits.map (·.toNat - 48)).reverse)

/-- The first of the headers that asks to wait asks for a positive number of seconds, which fits 64
bits. -/
inductive AsksFor : List (String × List UInt8) → Nat → Prop where
  | intro (before later : List (String × List UInt8)) (value : List UInt8) (seconds : Nat) :
      (∀ header ∈ before, header.1 ≠ "retry-after") → IsWhole value seconds →
      0 < seconds → seconds < 2 ^ 64 →
      AsksFor (before ++ ("retry-after", value) :: later) seconds

section Bytes

variable {b : UInt8} {bytes : List UInt8}

/-- The value of digits is that of their bytes. -/
theorem digits_value_eq {digits : List UInt8} (h : ∀ b ∈ digits, IsVisible b) :
    Text.digitsValue (digits.map character) =
      Nat.ofDigits 10 (digits.map (·.toNat - 48)).reverse := by
  induction digits using List.reverseRecOn with
  | nil => rfl
  | append_singleton digits b ih =>
      have hb : (character b).toNat = b.toNat := character_to_nat (h b (by simp))
      have hbefore := ih fun c hc => h c (List.mem_append_left _ hc)
      have hzero : '0'.toNat = 48 := rfl
      rw [Text.digitsValue] at hbefore ⊢
      rw [List.map_append, List.foldl_append, hbefore]
      simp [Nat.ofDigits_cons, hb, hzero]
      omega

/-- The byte of a sign is that of a plus. -/
theorem mem_sign {sign : List UInt8} (hsign : sign = [] ∨ sign = [43]) (h : b ∈ sign) : b = 43 := by
  rcases hsign with rfl | rfl
  · cases h
  · exact List.mem_singleton.mp h

/-- There are no blanks in a sign and digits. -/
theorem all_not_blank {sign digits : List UInt8} (hsign : sign = [] ∨ sign = [43])
    (hdigits : ∀ b ∈ digits, 48 ≤ b ∧ b ≤ 57) :
    ((sign ++ digits).map character).all (!Text.isBlank ·) = true := by
  rw [List.map_append, List.all_append, Bool.and_eq_true]
  constructor
  · rw [List.all_map, List.all_eq_true]
    intro b hb
    rw [mem_sign hsign hb]
    rfl
  · have hall := all_digits hdigits
    rw [List.all_eq_true] at hall ⊢
    intro c hc
    rw [Text.not_blank_of_digit (hall c hc)]
    rfl

/-- Bytes that write a number are visible. -/
theorem IsWhole.visible {n : Nat} (h : IsWhole bytes n) : ∀ b ∈ bytes, IsVisible b := by
  obtain ⟨before, sign, digits, later, hbefore, hsign, _, hall, hlater⟩ := h
  simp only [List.mem_append]
  rintro b ((hb | hb | hb) | hb)
  · exact visible_of_blank (hbefore b hb)
  · rw [mem_sign hsign hb]
    exact .inl ⟨by decide, by decide⟩
  · exact visible_of_digit (hall b hb)
  · exact visible_of_blank (hlater b hb)

/-- The number that bytes write is read from them if it is below the limit. -/
theorem IsWhole.read {n limit : Nat} (h : IsWhole bytes n) (hlimit : n < limit) :
    Text.natural? limit (Text.strip (bytes.map character)) = some n := by
  obtain ⟨before, sign, digits, later, hbefore, hsign, hdigits, hall, hlater⟩ := h
  rw [List.map_append, List.map_append,
    Text.strip_surrounded (all_blanks hbefore) (all_blanks hlater),
    Text.strip_of_no_blanks (all_not_blank hsign hall)]
  refine natural_eq_some_iff.mpr ⟨sign.map character, digits.map character, ?_, List.map_append,
    ?_, all_digits hall, digits_value_eq fun b hb => visible_of_digit (hall b hb), hlimit⟩
  · rcases hsign with rfl | rfl
    · exact .inl rfl
    · exact .inr rfl
  · exact fun hnil => hdigits (List.map_eq_nil_iff.mp hnil)

/-- A number that is read from visible bytes is below the limit, and they write it. -/
theorem whole_of_read {n limit : Nat} (hvisible : ∀ b ∈ bytes, IsVisible b)
    (hread : Text.natural? limit (Text.strip (bytes.map character)) = some n) :
    IsWhole bytes n ∧ n < limit := by
  -- The text is cut into blanks, a sign and digits, and the bytes in the same way.
  obtain ⟨before, later, hbefore, hlater, hcut⟩ := Text.strip_decompose (bytes.map character)
  obtain ⟨sign, digits, hsign, hcore, hdigits, hall, rfl, hlimit⟩ := natural_eq_some_iff.mp hread
  rw [hcore, List.map_eq_append_iff] at hcut
  obtain ⟨front, later, rfl, hfront, rfl⟩ := hcut
  obtain ⟨before, middle, rfl, rfl, hmiddle⟩ := List.map_eq_append_iff.mp hfront
  obtain ⟨sign, digits, rfl, rfl, rfl⟩ := List.map_eq_append_iff.mp hmiddle
  simp only [List.mem_append] at hvisible
  rw [List.all_map, List.all_eq_true] at hbefore hlater hall
  rw [digits_value_eq fun b hb => hvisible b (.inl (.inr (.inr hb)))] at hlimit ⊢
  refine ⟨.intro before sign digits later ?_ ?_ ?_ ?_ ?_, hlimit⟩
  · exact fun b hb => (blank_iff (hvisible b (.inl (.inl hb)))).mp (hbefore b hb)
  · rcases hsign with hsign | hsign
    · exact .inl (List.map_eq_nil_iff.mp hsign)
    · obtain ⟨b, rfl, hb⟩ := List.map_eq_singleton_iff.mp hsign
      exact .inr (congrArg (fun b => [b]) ((plus_iff (hvisible b (by simp))).mp hb))
  · exact fun hnil => hdigits (by rw [hnil]; rfl)
  · exact fun b hb => (digit_iff (hvisible b (.inl (.inr (.inr hb))))).mp (hall b hb)
  · exact fun b hb => (blank_iff (hvisible b (.inr hb))).mp (hlater b hb)

/-- Bytes are read as a number exactly if they write it. -/
theorem whole_iff {n limit : Nat} :
    (∃ cs, Http.visibleText? bytes = some cs ∧ Text.natural? limit (Text.strip cs) = some n) ↔
      IsWhole bytes n ∧ n < limit := by
  simp only [visible_text_eq_some_iff]
  constructor
  · rintro ⟨_, ⟨hvisible, rfl⟩, hread⟩
    exact whole_of_read hvisible hread
  · rintro ⟨hwhole, hlimit⟩
    exact ⟨_, ⟨hwhole.visible, rfl⟩, hwhole.read hlimit⟩

end Bytes

/-- The client waits as long as the headers ask for, in milliseconds. -/
theorem retry_after_eq_some_iff {headers : List (String × List UInt8)} {wait : Nat} :
    retryAfter? headers = some wait ↔
      ∃ seconds, AsksFor headers seconds ∧ wait = seconds * 1000 := by
  have hlimit : 1 <<< 64 = 2 ^ 64 := rfl
  unfold retryAfter?
  simp only [Option.bind_eq_bind, Option.bind_eq_some_iff]
  constructor
  · rintro ⟨value, hvalue, cs, hcs, seconds, hseconds, hwait⟩
    obtain ⟨before, later, rfl, hbefore⟩ := first_value_eq_some_iff.mp hvalue
    obtain ⟨hwhole, hlt⟩ := whole_iff.mp ⟨cs, hcs, hseconds⟩
    split at hwait
    · cases hwait
    · rename_i hpositive
      cases hwait
      exact ⟨seconds, .intro before later value seconds hbefore hwhole
        (Nat.pos_of_ne_zero hpositive) (hlimit ▸ hlt), rfl⟩
  · rintro ⟨seconds, ⟨before, later, value, _, hbefore, hwhole, hpositive, hlt⟩, rfl⟩
    obtain ⟨cs, hcs, hseconds⟩ := whole_iff.mpr ⟨hwhole, hlimit ▸ hlt⟩
    refine ⟨value, first_value_eq_some_iff.mpr ⟨before, later, rfl, hbefore⟩, cs, hcs,
      seconds, hseconds, ?_⟩
    rw [if_neg (Nat.ne_of_gt hpositive)]

/-! ## Kinds of answers -/

/-- The body has a document that says this. -/
def Documents (body : List UInt8) (report : Report) : Prop := readReport body = .ok report

/-- The order has earned an amount: it is processed, and the document has the amount or has none,
which stands for zero. -/
inductive Earns : Option Answer → Decimal → Prop where
  | nothing (headers : List (String × List UInt8)) (body : List UInt8) (report : Report) :
      Documents body report → report.status = "PROCESSED" → report.accrual = none →
      Earns (some ⟨200, headers, some body⟩) .zero
  | amount (headers : List (String × List UInt8)) (body : List UInt8) (report : Report)
      (number : Json.Number) (amount : Decimal) :
      Documents body report → report.status = "PROCESSED" → report.accrual = some number →
      Decimal.ofNumber number = .ok amount → 0 ≤ amount.value →
      Earns (some ⟨200, headers, some body⟩) amount

/-- The order is not valid. -/
inductive Rejects : Option Answer → Prop where
  | invalid (headers : List (String × List UInt8)) (body : List UInt8) (report : Report) :
      Documents body report → report.status = "INVALID" →
      Rejects (some ⟨200, headers, some body⟩)

/-- The status asks the client to slow down. -/
def IsBusy (status : Nat) : Prop := status = 429 ∨ (500 ≤ status ∧ status ≤ 599)

/-- It is too early to tell: nothing came back, the order is not known or not ready, or the accrual
system is busy and does not say for how long. -/
inductive Postpones : Option Answer → Prop where
  | unanswered : Postpones none
  | brokenOff (headers : List (String × List UInt8)) : Postpones (some ⟨200, headers, none⟩)
  | notReady (headers : List (String × List UInt8)) (body : List UInt8) (report : Report) :
      Documents body report → report.status = "REGISTERED" ∨ report.status = "PROCESSING" →
      Postpones (some ⟨200, headers, some body⟩)
  | notFound (headers : List (String × List UInt8)) (body : Option (List UInt8)) :
      Postpones (some ⟨204, headers, body⟩)
  | busy (status : Nat) (headers : List (String × List UInt8)) (body : Option (List UInt8)) :
      IsBusy status → (∀ seconds, ¬ AsksFor headers seconds) →
      Postpones (some ⟨status, headers, body⟩)

/-- The accrual system is busy and says for how many seconds. -/
inductive Pauses : Option Answer → Nat → Prop where
  | busy (status : Nat) (headers : List (String × List UInt8)) (body : Option (List UInt8))
      (seconds : Nat) :
      IsBusy status → AsksFor headers seconds → Pauses (some ⟨status, headers, body⟩) seconds

/-- The answer is none that the protocol knows. -/
def IsFault (answer : Option Answer) : Prop :=
  (∀ amount, ¬ Earns answer amount) ∧ ¬ Rejects answer ∧ ¬ Postpones answer ∧
    ∀ seconds, ¬ Pauses answer seconds

/-- What an attempt is told of an answer that says nothing final. -/
inductive TellsLater : Except AccrualError AccrualOutcome → Prop where
  | notReady : TellsLater (.ok .notReady)
  | notFound : TellsLater (.ok .notFound)
  | throttled : TellsLater (.ok (.throttled none))
  | transport (reason : String) : TellsLater (.error (.transport reason))

variable {answer : Option Answer} {headers : List (String × List UInt8)} {body : List UInt8}
  {report : Report} {amount : Decimal} {status seconds : Nat}

/-- A document with the status of success says what the answer means. -/
theorem outcome_of_document (h : Documents body report) :
    outcomeOf (some ⟨200, headers, some body⟩) = report.outcome := by
  show (readReport body >>= fun report => report.outcome) = _
  rw [h]
  rfl

/-- A body that is no document is unexpected. -/
theorem outcome_of_no_document {e : AccrualError} (h : readReport body = .error e) :
    outcomeOf (some ⟨200, headers, some body⟩) = .error e := by
  show (readReport body >>= fun report => report.outcome) = _
  rw [h]
  rfl

/-- A busy system is asked again when it says. -/
theorem outcome_of_busy (h : IsBusy status) (body : Option (List UInt8)) :
    outcomeOf (some ⟨status, headers, body⟩) = .ok (.throttled (retryAfter? headers)) := by
  unfold IsBusy at h
  have hok : status ≠ 200 := by omega
  have hnone : status ≠ 204 := by omega
  have hbusy : status = 429 ∨ (500 ≤ status ∧ status < 600) := by omega
  simp only [outcomeOf, Answer.outcome, hok, hnone, hbusy, if_true, if_false]

/-- An earned amount is what the client reports. -/
theorem Earns.outcome (h : Earns answer amount) : outcomeOf answer = .ok (.resolved amount) := by
  cases h with
  | nothing headers body report hbody hstatus hnone =>
      simp [outcome_of_document hbody, Report.outcome, hstatus, Report.amount, hnone, Except.map]
  | amount headers body report number amount hbody hstatus hnumber hamount hnonneg =>
      have hnegative := Decimal.nonneg_iff.mpr hnonneg
      simp [outcome_of_document hbody, Report.outcome, hstatus, Report.amount, hnumber, hamount,
        hnegative, Except.map]

/-- A document that has no amount, or null for it, stands for nothing earned. -/
example :
    outcomeOf (some ⟨200, [], some (Text.utf8
      "\x7b\"order\":\"18\",\"status\":\"PROCESSED\"\x7d")⟩) = .ok (.resolved .zero) ∧
    outcomeOf (some ⟨200, [], some (Text.utf8
      "\x7b\"accrual\":null,\"order\":\"18\",\"status\":\"PROCESSED\"\x7d")⟩) =
        .ok (.resolved .zero) := by
  cbv

/-- An earned amount is not negative. -/
theorem Earns.nonneg (h : Earns answer amount) : amount.isNegative = false := by
  cases h with
  | nothing => rfl
  | amount headers body report number amount hbody hstatus hnumber hamount hnonneg =>
      exact Decimal.nonneg_iff.mpr hnonneg

/-- A rejection is what the client reports. -/
theorem Rejects.outcome (h : Rejects answer) : outcomeOf answer = .ok .invalid := by
  cases h with
  | invalid headers body report hbody hstatus =>
      simp [outcome_of_document hbody, Report.outcome, hstatus]

/-- A time to wait is what the client reports, in milliseconds. -/
theorem Pauses.outcome (h : Pauses answer seconds) :
    outcomeOf answer = .ok (.throttled (some (seconds * 1000))) := by
  cases h with
  | busy status headers body seconds hbusy hasks =>
      rw [outcome_of_busy hbusy, retry_after_eq_some_iff.mpr ⟨seconds, hasks, rfl⟩]

/-- Without a time to wait the client reports nothing final. -/
theorem Postpones.outcome (h : Postpones answer) : TellsLater (outcomeOf answer) := by
  cases h with
  | unanswered => exact .transport _
  | brokenOff headers => exact .transport _
  | notFound headers body => exact .notFound
  | notReady headers body report hbody hstatus =>
      rw [outcome_of_document hbody, Report.outcome, if_pos hstatus]
      exact .notReady
  | busy status headers body hbusy hsilent =>
      rw [outcome_of_busy hbusy]
      cases hwait : retryAfter? headers with
      | none => exact .throttled
      | some wait =>
          obtain ⟨seconds, hasks, _⟩ := retry_after_eq_some_iff.mp hwait
          exact absurd hasks (hsilent seconds)

/-- A document of a known status is of one of the kinds, unless its amount is none. -/
theorem document_cases (hbody : Documents body report) :
    (∃ amount, Earns (some ⟨200, headers, some body⟩) amount) ∨
    Rejects (some ⟨200, headers, some body⟩) ∨ Postpones (some ⟨200, headers, some body⟩) ∨
    ∃ reason, report.outcome = .error (.unexpected reason) := by
  unfold Report.outcome
  split
  · rename_i hstatus
    exact .inr (.inr (.inl (.notReady headers body report hbody hstatus)))
  · split
    · rename_i _ hstatus
      exact .inr (.inl (.invalid headers body report hbody hstatus))
    · split
      · rename_i _ _ hstatus
        unfold Report.amount
        cases hnumber : report.accrual with
        | none => exact .inl ⟨_, .nothing headers body report hbody hstatus hnumber⟩
        | some number =>
            cases hamount : Decimal.ofNumber number with
            | error e => exact .inr (.inr (.inr ⟨e.message, by simp [hamount, Except.map]⟩))
            | ok amount =>
                cases hnegative : amount.isNegative with
                | true =>
                    refine .inr (.inr (.inr ⟨s!"negative accrual {amount.toText}", ?_⟩))
                    simp only [hamount, hnegative, if_true, Except.map]
                | false =>
                    exact .inl ⟨amount, .amount headers body report number amount hbody hstatus
                      hnumber hamount (Decimal.nonneg_iff.mp hnegative)⟩
      · exact .inr (.inr (.inr ⟨_, rfl⟩))

/-- An answer that the protocol does not know is unexpected. -/
theorem IsFault.outcome (h : IsFault answer) :
    ∃ reason, outcomeOf answer = .error (.unexpected reason) := by
  obtain ⟨hearns, hrejects, hpostpones, hpauses⟩ := h
  cases answer with
  | none => exact absurd .unanswered hpostpones
  | some answer =>
      obtain ⟨status, headers, body⟩ := answer
      by_cases hok : status = 200
      · subst hok
        cases body with
        | none => exact absurd (.brokenOff headers) hpostpones
        | some body =>
            cases hbody : readReport body with
            | error e =>
                rw [outcome_of_no_document hbody]
                unfold readReport at hbody
                split at hbody
                · cases hbody
                · cases hbody
                  exact ⟨_, rfl⟩
            | ok report =>
                rw [outcome_of_document hbody]
                rcases document_cases hbody with ⟨amount, h⟩ | h | h | h
                · exact absurd h (hearns amount)
                · exact absurd h hrejects
                · exact absurd h hpostpones
                · exact h
      · by_cases hbusy : IsBusy status
        · exfalso
          by_cases hasks : ∃ seconds, AsksFor headers seconds
          · obtain ⟨seconds, hasks⟩ := hasks
            exact hpauses seconds (.busy status headers body seconds hbusy hasks)
          · exact hpostpones (.busy status headers body hbusy (not_exists.mp hasks))
        · by_cases hnone : status = 204
          · subst hnone
            exact absurd (.notFound headers body) hpostpones
          · unfold IsBusy at hbusy
            have hother : ¬ (status = 429 ∨ (500 ≤ status ∧ status < 600)) := by omega
            refine ⟨s!"unexpected status code {status}", ?_⟩
            simp only [outcomeOf, Answer.outcome, hok, hnone, hother, if_false]

end Rewards.Accrual
