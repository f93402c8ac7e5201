import Rewards.Proofs.Account.Identifiers
import Rewards.Proofs.Crypto.Base64
import Rewards.Proofs.Json.Records
import Rewards.Proofs.Text.Splitting
import Rewards.Proofs.Time.Timestamps
import Rewards.Session.Token

/-!
# What session tokens say

A token says what it was issued for: its claims are read back to the nanosecond, and they hold from
the instant of issue up to the end of the session. Whatever is accepted is made of a header that
names the algorithm, of claims that hold, and of the signature of both. Nothing is accepted for the
dates among the registered claims, which are not looked at. The main statement is `tokens_hold`.
-/

namespace Rewards

open Json.Reader (Takes Fills takes_pure takes_text takes_ignored takes_choice
  takes_record)

/-! ## Lengths of time -/

namespace Instant

/-- The nanoseconds since the start of 1970, leap seconds apart. -/
def sinceEpoch (t : Instant) : Int := t.second * nanosPerSecond + t.nano

/-- The instant is no leap second. -/
def IsOrdinary (t : Instant) : Prop := t.nano < nanosPerSecond

instance (t : Instant) : Decidable t.IsOrdinary := inferInstanceAs (Decidable (_ < _))

/-- Ordinary instants follow each other as their nanoseconds do. -/
theorem le_iff_since_epoch {a b : Instant} (ha : a.IsOrdinary) (hb : b.IsOrdinary) :
    a.le b = true ↔ a.sinceEpoch ≤ b.sinceEpoch := by
  unfold IsOrdinary sinceEpoch nanosPerSecond at *
  simp only [le, Bool.or_eq_true, decide_eq_true_eq, Bool.and_eq_true, beq_iff_eq]
  omega

/-- From an ordinary instant on, time is counted in nanoseconds. -/
theorem add_eq_some {now later : Instant} {nanos : Int} (hnow : now.IsOrdinary)
    (hlater : later.IsOrdinary) (hsum : later.sinceEpoch = now.sinceEpoch + nanos)
    (hrange : isInRange later.second = true) : now.add? nanos = some later := by
  unfold IsOrdinary sinceEpoch at *
  have hsecond : (now.second * nanosPerSecond + now.nano + nanos) / nanosPerSecond =
      later.second := by
    unfold nanosPerSecond at *
    omega
  have hnano : ((now.second * nanosPerSecond + now.nano + nanos) % nanosPerSecond).toNat =
      later.nano := by
    unfold nanosPerSecond at *
    omega
  simp only [add?, Nat.not_le_of_lt hnow, false_and, dif_neg, not_false_eq_true, hnow, if_true,
    hsecond, hnano, hrange]

end Instant

/-! ## Claims in documents -/

namespace Claims

/-- Both ends of the session are instants of a clock, in years of four digits. -/
structure IsWritable (c : Claims) : Prop where
  issuedYear : c.issuedAt.HasShortYear
  issuedClock : c.issuedAt.IsClockTime
  expiresYear : c.expiresAt.HasShortYear
  expiresClock : c.expiresAt.IsClockTime

variable {c : Claims}

/-- The members of claims. -/
def members (c : Claims) : List (String × Json.Value) :=
  [("sub", c.subject.toJson), ("issued_at", c.issuedAt.toJson), ("expires_at", c.expiresAt.toJson)]

/-- The members of claims fill them in. -/
theorem fills_claims (h : c.IsWritable) :
    Fills fields ⟨none, none, none⟩ c.members
      ⟨some c.subject, some c.issuedAt, some c.expiresAt⟩ := by
  have hsubject := UserId.takes_reader c.subject
  have hissued := Instant.takes_reader h.issuedYear h.issuedClock
  have hexpires := Instant.takes_reader h.expiresYear h.expiresClock
  refine .known (by decide +kernel) rfl rfl (hsubject.map (takes_pure _)) ?_
  refine .known (by decide +kernel) rfl rfl (hissued.map (takes_pure _)) ?_
  exact .known (by decide +kernel) rfl rfl (hexpires.map (takes_pure _)) (.done _)

/-- Claims are read as they were written. -/
theorem takes_reader (h : c.IsWritable) : Takes reader c.toJson.chars c :=
  (takes_record (fills_claims h) rfl _).map (takes_pure c)

end Claims

namespace Session

variable {secret : List UInt8} {c : Claims}

/-- No audience is found in claims. -/
theorem takes_audience (c : Claims) : Takes audienceReader c.toJson.chars false := by
  have hsubject := takes_ignored c.subject.uuid.plain_text
  have hissued := takes_ignored c.issuedAt.plain_zulu
  have hexpires := takes_ignored c.expiresAt.plain_zulu
  have hfills : Fills registeredFields ⟨[], false⟩ c.members ⟨["sub"], false⟩ := by
    refine .known (by decide +kernel) rfl rfl (hsubject.map (takes_pure _)) ?_
    refine .other (by decide +kernel) rfl hissued ?_
    exact .other (by decide +kernel) rfl hexpires (.done _)
  exact (takes_record hfills rfl _).map (takes_pure _)

/-- The header that is sent names the algorithm. -/
theorem takes_header : Takes headerReader header.chars .hs256 := by
  have htype := (takes_text "JWT" "a string").optional (by decide) (by decide)
  have halgorithm : Takes (Json.Reader.choice Algorithm.ofName?) (Json.textChars "HS256") .hs256 :=
    takes_choice rfl
  have hfills : Fills headerFields ⟨[], none⟩ [("typ", .text "JWT"), ("alg", .text "HS256")]
      ⟨["typ"], some .hs256⟩ := by
    refine .known (by decide +kernel) rfl rfl (htype.map (takes_pure _)) ?_
    exact .known (by decide +kernel) rfl rfl (halgorithm.map (takes_pure _)) (.done _)
  exact (takes_record hfills rfl _).map (takes_pure _)

/-- A part of a token is read as the value that it was made of. -/
theorem read_part_encode {α : Type} {reader : Json.Reader α} {value : Json.Value} {a : α}
    (h : Takes reader value.chars a) : readPart reader (encodePart value) = .ok a := by
  rw [readPart, encodePart, Crypto.Base64.decode_encode Crypto.Base64.url_alphabet_nodup
    Crypto.Base64.url_alphabet_length, Json.Value.toText, Text.utf8_of_list]
  simp only [h.run]

/-- What can be read in base 64 has no point. -/
theorem no_point_of_read_part {α : Type} {reader : Json.Reader α} {part : List Char} {a : α}
    (h : readPart reader part = .ok a) : '.' ∉ part := by
  unfold readPart at h
  split at h
  · cases h
  · rename_i bytes hbytes
    exact fun hpoint =>
      Crypto.Base64.point_not_mem (Crypto.Base64.mem_of_decode hbytes '.' hpoint)

/-- What is written in base 64 has no point. -/
theorem no_point_of_encode (bytes : List UInt8) :
    '.' ∉ Crypto.Base64.encode Crypto.Base64.urlAlphabet bytes :=
  fun hpoint => Crypto.Base64.point_not_mem
    (Crypto.Base64.mem_of_encode Crypto.Base64.url_alphabet_length bytes '.' hpoint)

/-! ## Tokens -/

/-- A token is split at its last two points. -/
theorem split_ok_iff {token : List Char} {parts : Parts} :
    split token = .ok parts ↔
      token = parts.message ++ '.' :: parts.signature ∧ '.' ∉ parts.signature ∧
        parts.message = parts.header ++ '.' :: parts.claims ∧ '.' ∉ parts.claims := by
  obtain ⟨message, header, claims, signature⟩ := parts
  unfold split
  constructor
  · intro h
    split at h
    · cases h
    · rename_i whole last hlast
      split at h
      · cases h
      · rename_i first second hfirst
        cases h
        obtain ⟨htoken, hsignature⟩ := Text.split_last_eq_some_iff.mp hlast
        obtain ⟨hmessage, hclaims⟩ := Text.split_last_eq_some_iff.mp hfirst
        exact ⟨htoken, hsignature, hmessage, hclaims⟩
  · rintro ⟨htoken, hsignature, hmessage, hclaims⟩
    simp only [Text.split_last_eq_some_iff.mpr ⟨htoken, hsignature⟩,
      Text.split_last_eq_some_iff.mpr ⟨hmessage, hclaims⟩]

/-- The claims of a token that was signed with the secret are read back. -/
theorem read_sign (h : c.IsWritable) : readToken secret (sign secret c).toList = .ok c := by
  have hheader := read_part_encode takes_header
  have hclaims := read_part_encode (Claims.takes_reader h)
  have haudience := read_part_encode (takes_audience c)
  have hsplit : split (sign secret c).toList =
      .ok ⟨encodePart header ++ '.' :: encodePart c.toJson, encodePart header, encodePart c.toJson,
        signature secret (encodePart header ++ '.' :: encodePart c.toJson)⟩ := by
    rw [sign, String.toList_ofList]
    exact split_ok_iff.mpr
      ⟨rfl, no_point_of_encode _, rfl, no_point_of_encode _⟩
  unfold readToken
  simp only [hsplit, hheader, hclaims, haudience, bind, Except.bind, ne_eq, not_true_eq_false,
    if_false, pure, Except.pure, Bool.false_eq_true]

/-- What follows a step goes on with the value of the step. -/
theorem bind_eq_ok {ε α β : Type} {x : Except ε α} {f : α → Except ε β} {b : β}
    (h : (x >>= f) = .ok b) : ∃ a, x = .ok a ∧ f a = .ok b := by
  cases x with
  | error e => cases h
  | ok a => exact ⟨a, rfl, h⟩

/-- A token that is read is made of a header that names the algorithm, of claims, and of the
signature of both. -/
theorem parts_of_read {token : List Char} (h : readToken secret token = .ok c) :
    ∃ header claims,
      Text.split '.' token = [header, claims, signature secret (header ++ '.' :: claims)] ∧
        readPart headerReader header = .ok .hs256 ∧ readPart Claims.reader claims = .ok c := by
  unfold readToken at h
  obtain ⟨⟨message, header, claims, written⟩, hsplit, h⟩ := bind_eq_ok h
  obtain ⟨htoken, hnone, hmessage, hclaims⟩ := split_ok_iff.mp hsplit
  obtain ⟨algorithm, hheader, h⟩ := bind_eq_ok h
  dsimp only at htoken hmessage hnone hclaims hheader h
  by_cases halgorithm : algorithm ≠ .hs256
  · rw [if_pos halgorithm] at h
    cases h
  rw [if_neg halgorithm] at h
  by_cases hsignature : signature secret message ≠ written
  · rw [if_pos hsignature] at h
    cases h
  rw [if_neg hsignature] at h
  rw [ne_eq, not_not] at halgorithm hsignature
  obtain ⟨read, hread, h⟩ := bind_eq_ok h
  obtain ⟨hasAudience, -, h⟩ := bind_eq_ok h
  split at h
  · cases h
  cases h
  refine ⟨header, claims, ?_, halgorithm ▸ hheader, hread⟩
  rw [htoken, hmessage, List.append_assoc, List.cons_append,
    Text.split_append (no_point_of_read_part hheader), Text.split_append hclaims,
    Text.split_of_not_mem hnone, ← hsignature, hmessage]

/-! ## Sessions -/

/-- Claims that hold have begun and not ended. -/
theorem window_of_check {now : Instant} (h : c.check now = .ok ()) :
    c.issuedAt.le now = true ∧ now.lt c.expiresAt = true := by
  unfold Claims.check at h
  split_ifs at h with hwindow hearly hlate
  exact ⟨by simpa [Instant.lt] using hearly, by simpa [Instant.lt] using hlate⟩

/-- A session of any number of nanoseconds begins at any instant but a leap second, if both its ends
are in years of four digits. Its token says at every time whose session it is and when it begins and
ends, to the nanosecond, if it has begun and not ended, and otherwise which of these is the case.
Whatever token is accepted at a time has exactly three parts: a header that names the algorithm,
claims that hold at this time, and the signature of both under the secret. -/
theorem tokens_hold (issuer : Issuer) :
    (∀ (user : UserId) (now expiresAt : Instant) (nanos : Int), now.IsOrdinary →
      expiresAt.IsOrdinary → expiresAt.sinceEpoch = now.sinceEpoch + nanos →
      now.HasShortYear → expiresAt.HasShortYear →
      ∃ token, issuer.issueFor? nanos user now = some token ∧
        ∀ t, issuer.validate token t =
          if nanos ≤ 0 then .error (.claims .invalidTimeWindow)
          else if t.lt now then .error (.claims .notYetValid)
          else if t.lt expiresAt then .ok ⟨user, now, expiresAt⟩
          else .error (.claims .expired)) ∧
    (∀ (token : String) (t : Instant) (c : Claims), issuer.validate token t = .ok c →
      ∃ header claims,
        Text.split '.' token.toList =
          [header, claims, signature issuer.secret (header ++ '.' :: claims)] ∧
        readPart headerReader header = .ok .hs256 ∧ readPart Claims.reader claims = .ok c ∧
        c.issuedAt.le t = true ∧ t.lt c.expiresAt = true) := by
  constructor
  · intro user now expiresAt nanos hnow hexpires hsum hnowYear hexpiresYear
    have hadd := Instant.add_eq_some hnow hexpires hsum hexpiresYear.range
    have hwritable : (⟨user, now, expiresAt⟩ : Claims).IsWritable :=
      ⟨hnowYear, .inl hnow, hexpiresYear, .inl hexpires⟩
    refine ⟨sign issuer.secret ⟨user, now, expiresAt⟩, ?_, fun t => ?_⟩
    · rw [Issuer.issueFor?, hadd]
      rfl
    · have hwindow : expiresAt.le now = true ↔ nanos ≤ 0 := by
        rw [Instant.le_iff_since_epoch hexpires hnow, hsum]
        omega
      have hlate : expiresAt.le t = true ↔ ¬ t.lt expiresAt = true := by
        simp [Instant.lt]
      rw [Issuer.validate, read_sign hwritable]
      simp only [Claims.check, hwindow, hlate]
      split_ifs <;> rfl
  · intro token t c hvalid
    unfold Issuer.validate at hvalid
    split at hvalid
    · cases hvalid
    rename_i claims hread
    split at hvalid
    · cases hvalid
    rename_i hcheck
    cases hvalid
    obtain ⟨header, part, hsplit, hheader, hclaims⟩ := parts_of_read hread
    exact ⟨header, part, hsplit, hheader, hclaims, window_of_check hcheck⟩

/-- A session of a second and a half that begins five nanoseconds after a full second: its token is
accepted then, and has three parts. -/
theorem tokens_hold_briefly :
    ∃ token header claims,
      (Issuer.ofSecret "secret").issueFor? 1500000000 default ⟨1700000000, 5, by decide⟩ =
        some token ∧
      (Issuer.ofSecret "secret").validate token ⟨1700000000, 5, by decide⟩ =
        .ok ⟨default, ⟨1700000000, 5, by decide⟩, ⟨1700000001, 500000005, by decide⟩⟩ ∧
      Text.split '.' token.toList =
        [header, claims, signature (Text.utf8 "secret") (header ++ '.' :: claims)] := by
  obtain ⟨hissued, haccepted⟩ := tokens_hold (Issuer.ofSecret "secret")
  obtain ⟨token, htoken, htimes⟩ := hissued default ⟨1700000000, 5, by decide⟩
    ⟨1700000001, 500000005, by decide⟩ 1500000000 (by decide) (by decide) (by decide)
    ⟨by decide +kernel, by decide +kernel⟩ ⟨by decide +kernel, by decide +kernel⟩
  have hnow := htimes ⟨1700000000, 5, by decide⟩
  rw [if_neg (by decide), if_neg (by decide), if_pos (by decide)] at hnow
  obtain ⟨header, claims, hsplit, -⟩ := haccepted token _ _ hnow
  exact ⟨token, header, claims, htoken, hnow, hsplit⟩

end Session

end Rewards
