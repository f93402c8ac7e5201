import Rewards.Ledger.Entry
import Rewards.Proofs.Account.Identifiers
import Rewards.Proofs.Decimal.Documents
import Rewards.Proofs.Json.Records
import Rewards.Proofs.Order.Grammar
import Rewards.Proofs.Time.Clock

/-!
# Ledger entries in documents

An entry is written as an object with its four fields, and `fills_entry` follows them as they are
read back. A document may hold an entry in another form: with its fields in another order, with
fields of other names, or as a sequence. Whatever is read from it is an entry at an instant of a
clock, `yields_reader`, so it is read back from its own text. The main statement is
`entries_return`. An entry at any other instant is read at another one, `odd_leap_second_is_lost`.
-/

namespace Rewards.LedgerEntry

open Instant (HasShortYear IsClockTime)
open Json.Reader (Fills Takes Yields takes_pure takes_record yields_after yields_malformed
  yields_pure yields_record)

variable {e : LedgerEntry}

/-- The members of an entry. -/
def members (e : LedgerEntry) : List (String × Json.Value) :=
  [("order_number", e.order.toJson), ("user_id", e.user.toJson),
    ("amount", .text e.amount.toText), ("processed_at", e.processedAt.toJson)]

/-- The members of an entry fill it in, at the instant that a clock shows. -/
theorem fills_entry (h : e.processedAt.HasShortYear) :
    Fills fields ⟨none, none, none, none⟩ e.members
      ⟨some e.order, some e.user, some e.amount, some e.processedAt.onClock⟩ := by
  have horder := e.order.takes_reader
  have huser := e.user.takes_reader
  have hamount := e.amount.takes_reader
  have hinstant := Instant.takes_reader_on_clock h
  refine .known (by decide +kernel) rfl rfl (horder.map (takes_pure _)) ?_
  refine .known (by decide +kernel) rfl rfl (huser.map (takes_pure _)) ?_
  refine .known (by decide +kernel) rfl rfl (hamount.map (takes_pure _)) ?_
  exact .known (by decide +kernel) rfl rfl (hinstant.map (takes_pure _)) (.done _)

/-- An entry is read from its own text, at the instant that a clock shows. -/
theorem run_reader_text (h : e.processedAt.HasShortYear) :
    Json.Reader.run reader (Text.utf8 e.toJson.toText) =
      .ok { e with processedAt := e.processedAt.onClock } := by
  have htakes : Takes reader e.toJson.chars { e with processedAt := e.processedAt.onClock } :=
    (takes_record (fills_entry h) rfl _).map (takes_pure _)
  rw [Json.Value.toText, Text.utf8_of_list, htakes.run]

/-- The instant of an entry that is being read is one of a clock, once it is read. -/
def Partial.IsOnClock (p : Partial) : Prop := ∀ t ∈ p.processedAt, t.IsClockTime

/-- Every field keeps to instants of a clock. -/
theorem yields_fields : ∀ field ∈ fields, ∀ p : Partial, p.IsOnClock →
    Yields (field.read p) Partial.IsOnClock := by
  intro field hfield p hp
  simp only [fields, List.mem_cons, List.not_mem_nil, or_false] at hfield
  rcases hfield with rfl | rfl | rfl | rfl
  · exact yields_after fun order => yields_pure hp
  · exact yields_after fun user => yields_pure hp
  · exact yields_after fun amount => yields_pure hp
  · refine Instant.yields_reader.bind fun t ht => yields_pure fun s hs => ?_
    cases hs
    exact ht

/-- Documents give entries at instants of a clock. -/
theorem yields_reader : Yields reader fun e => e.processedAt.IsClockTime := by
  have hempty : Partial.IsOnClock ⟨none, none, none, none⟩ := nofun
  have hrecord := yields_record yields_fields "struct LedgerEntry" hempty
  refine hrecord.bind fun p hp => ?_
  split
  · exact yields_pure (hp _ rfl)
  · exact yields_malformed _

/-- An entry at any instant of a clock in a year of four digits is read from its own text as it was
written: with its number, its user, the value and the scale of its amount, and its instant to the
nanosecond. All instants that are read from texts are of a clock, and going on from one leads to
another one; any other instant is read as a clock shows it. Whatever document an entry is read from,
its number is valid, and it is read again from its own text. -/
theorem entries_return :
    (∀ e : LedgerEntry, e.processedAt.HasShortYear → e.processedAt.IsClockTime →
      Json.Reader.run reader (Text.utf8 e.toJson.toText) = .ok e) ∧
    (∀ e : LedgerEntry, e.processedAt.HasShortYear →
      Json.Reader.run reader (Text.utf8 e.toJson.toText) =
        .ok { e with processedAt := e.processedAt.onClock }) ∧
    (∀ (s : String) (t : Instant), Instant.read s = some t → t.IsClockTime) ∧
    (∀ (t later : Instant) (nanos : Int), t.IsClockTime → t.add? nanos = some later →
      later.IsClockTime) ∧
    (∀ (document : List UInt8) (e : LedgerEntry), Json.Reader.run reader document = .ok e →
      OrderNumber.parse e.order.text = .ok e.order ∧
        (e.processedAt.HasShortYear →
          Json.Reader.run reader (Text.utf8 e.toJson.toText) = .ok e)) := by
  have hreturn (e : LedgerEntry) (hyear : e.processedAt.HasShortYear)
      (hclock : e.processedAt.IsClockTime) :
      Json.Reader.run reader (Text.utf8 e.toJson.toText) = .ok e := by
    rw [run_reader_text hyear, (Instant.on_clock_eq_iff e.processedAt).mpr hclock]
  refine ⟨hreturn, fun e => run_reader_text, fun s t => Instant.clock_of_read,
    fun t later nanos => Instant.clock_of_add, fun document e hread => ?_⟩
  exact ⟨OrderNumber.parse_text e.order, fun hyear => hreturn e hyear (yields_reader.run hread)⟩

/-- A withdrawal at a leap second in another zone, written as a sequence with its identifier without
hyphens and its amount with an exponent, is read again from its own text. -/
theorem entries_return_from_sequence :
    ∃ e : LedgerEntry, e.order.text = "0125" ∧ e.amount.coefficient = -12500 ∧ e.amount.scale = 4 ∧
      e.processedAt.nano = 1250000000 ∧
      Json.Reader.run reader (Text.utf8 ("[\"0125\", \"00000000000000000000000000000007\", " ++
        "\"-12.500e-1\", \"2024-02-29T23:59:60.25+03:00\"]")) = .ok e ∧
      Json.Reader.run reader (Text.utf8 e.toJson.toText) = .ok e := by
  obtain ⟨-, -, -, -, hread⟩ := entries_return
  have hdocument : Json.Reader.run reader
      (Text.utf8 ("[\"0125\", \"00000000000000000000000000000007\", " ++
        "\"-12.500e-1\", \"2024-02-29T23:59:60.25+03:00\"]")) =
      .ok ⟨⟨"0125", by decide +kernel⟩, ⟨.ofNat 7⟩, ⟨-12500, 4, by decide, by decide⟩,
        ⟨1709240399, 1250000000, by decide⟩⟩ := by decide +kernel
  exact ⟨_, rfl, rfl, rfl, rfl, hdocument,
    (hread _ _ hdocument).2 ⟨by decide +kernel, by decide +kernel⟩⟩

/-- A second and a half from the start of a second that is not the last of its minute is no time of
a clock. An entry at such an instant is written like one at the second that follows, and that is
where it is read. -/
theorem odd_leap_second_is_lost :
    let e : LedgerEntry := ⟨⟨"125", rfl⟩, default, .zero, ⟨1700000000, 1500000000, by decide⟩⟩
    e.processedAt.HasShortYear ∧
      Json.Reader.run reader (Text.utf8 e.toJson.toText) =
        .ok { e with processedAt := ⟨1700000001, 500000000, by decide⟩ } ∧
      Json.Reader.run reader (Text.utf8 e.toJson.toText) ≠ .ok e := by
  intro e
  have hyear : e.processedAt.HasShortYear := ⟨by decide +kernel, by decide +kernel⟩
  have hclock : e.processedAt.onClock = ⟨1700000001, 500000000, by decide⟩ := by decide +kernel
  have hread := run_reader_text hyear
  rw [hclock] at hread
  refine ⟨hyear, hread, fun hsame => ?_⟩
  rw [hread, Except.ok.injEq] at hsame
  exact absurd (congrArg (·.processedAt.second) hsame) (by decide)

end Rewards.LedgerEntry
