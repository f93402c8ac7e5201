import Mathlib.Tactic.FieldSimp
import Mathlib.Tactic.Ring
import Rewards.Decimal.Reading
import Rewards.Proofs.Binary64.Shortest
import Rewards.Proofs.Decimal.Value
import Rewards.Proofs.Text.Digits

/-!
# Amounts are read from their digits

Digits are read into the amount they write if they fit: `read_magnitude_digits` is the step for a
run of digits. The texts of binary numbers are digits with a point among them or zeros around them,
or an exponent after them, and in each of these forms digits are read and rounded to 28 places,
`read_digits`. No number of 28 places is changed by this, `value_of_near`.
-/

namespace Rewards.Decimal

/-! ## Runs of digits -/

/-- Every digit makes a number larger. -/
theorem le_of_digit_chars (ds : List Char) (m : Nat) : m ≤ Nat.ofDigitChars 10 ds m := by
  induction ds generalizing m with
  | nil => exact Nat.le_refl m
  | cons c ds ih =>
      rw [Nat.ofDigitChars_cons]
      exact Nat.le_trans (by omega) (ih _)

/-- A run of digits is read if it fits, in the whole part or after the point. -/
theorem read_magnitude_digits (point : Bool) {started : Bool} {m scale : Nat} {ds : List Char}
    (hds : ∀ c ∈ ds, c.isDigit = true) (hstarted : started = true ∨ ds ≠ [])
    (hfits : Nat.ofDigitChars 10 ds m < bound)
    (hscale : if point then scale + ds.length ≤ maxScale else scale = 0) (rest : List Char) :
    readMagnitude point started m scale (ds ++ rest) =
      readMagnitude point true (Nat.ofDigitChars 10 ds m)
        (if point then scale + ds.length else 0) rest := by
  induction ds generalizing started m scale with
  | nil =>
      have htrue : started = true := hstarted.resolve_right fun hne => hne rfl
      cases point with
      | true => rw [htrue]; rfl
      | false => rw [htrue, show scale = 0 from hscale]; rfl
  | cons c ds ih =>
      have hvalue : Nat.ofDigitChars 10 (c :: ds) m =
          Nat.ofDigitChars 10 ds (m * 10 + digitValue c) := by
        rw [Nat.ofDigitChars_cons, Nat.mul_comm]
        rfl
      rw [hvalue] at hfits ⊢
      have hroom : (decide (m * 10 + digitValue c < bound) && !(point && scale == maxScale)) =
          true := by
        rw [Bool.and_eq_true, decide_eq_true_eq]
        refine ⟨Nat.lt_of_le_of_lt (le_of_digit_chars ds _) hfits, ?_⟩
        cases point with
        | false => rfl
        | true =>
            have hne : scale ≠ maxScale := by
              rw [if_pos rfl, List.length_cons] at hscale
              omega
            simpa using hne
      have hdigits : ∀ d ∈ ds, d.isDigit = true := fun d hd => hds d (List.mem_cons_of_mem c hd)
      have hnext : if point then (if point then scale + 1 else 0) + ds.length ≤ maxScale
          else (if point then scale + 1 else 0) = 0 := by
        cases point with
        | false => rfl
        | true =>
            rw [if_pos rfl, List.length_cons] at hscale
            rw [if_pos rfl, if_pos rfl]
            omega
      rw [List.cons_append, readMagnitude, if_pos (hds c List.mem_cons_self)]
      dsimp only
      rw [if_pos hroom, ih hdigits (.inl rfl) hfits hnext]
      cases point with
      | false => rfl
      | true =>
          rw [if_pos rfl, if_pos rfl, if_pos rfl, List.length_cons, Nat.add_right_comm,
            Nat.add_assoc]

/-- Digits with a point before the fraction, if there is a fraction. -/
def pointed (whole fraction : List Char) : List Char :=
  whole ++ (if fraction = [] then [] else '.' :: fraction)

/-- Digits with a point among them are read if they fit. -/
theorem read_magnitude_pointed {whole fraction : List Char}
    (hdigits : ∀ c ∈ whole ++ fraction, c.isDigit = true) (hwhole : whole ≠ [])
    (hfits : Nat.ofDigitChars 10 (whole ++ fraction) 0 < bound)
    (hscale : fraction.length ≤ maxScale) (rest : List Char) :
    readMagnitude false false 0 0 (pointed whole fraction ++ rest) =
      readMagnitude (!fraction.isEmpty) true (Nat.ofDigitChars 10 (whole ++ fraction) 0)
        fraction.length rest := by
  have hwholeDigits : ∀ c ∈ whole, c.isDigit = true :=
    fun c hc => hdigits c (List.mem_append_left _ hc)
  have hfractionDigits : ∀ c ∈ fraction, c.isDigit = true :=
    fun c hc => hdigits c (List.mem_append_right _ hc)
  rw [Nat.ofDigitChars_append] at hfits ⊢
  have hless := Nat.lt_of_le_of_lt (le_of_digit_chars fraction _) hfits
  have hread (rest : List Char) : readMagnitude false false 0 0 (whole ++ rest) =
      readMagnitude false true (Nat.ofDigitChars 10 whole 0) 0 rest :=
    read_magnitude_digits false hwholeDigits (.inr hwhole) hless rfl rest
  unfold pointed
  rw [List.append_assoc, hread]
  cases fraction with
  | nil => rfl
  | cons c cs =>
      have hroom : if true then 0 + (c :: cs).length ≤ maxScale else 0 = 0 := by
        rwa [if_pos rfl, Nat.zero_add]
      rw [if_neg (List.cons_ne_nil c cs), List.cons_append, readMagnitude, if_neg (by decide),
        if_pos rfl, if_neg Bool.false_ne_true,
        read_magnitude_digits true hfractionDigits (.inl rfl) hfits hroom, if_pos rfl, Nat.zero_add]
      rfl

/-! ## Signs -/

/-- A sign before characters, if there is one. -/
def withSign (negative : Bool) (cs : List Char) : List Char :=
  (if negative then ['-'] else []) ++ cs

/-- An amount that fits is made from its sign and magnitude. -/
theorem of_magnitude_eq (negative : Bool) {m scale : Nat} (hm : m < bound)
    (hscale : scale ≤ maxScale) :
    ∃ d, ofMagnitude negative m scale = .ok d ∧
      d.coefficient = (if negative then -(m : Int) else m) ∧ d.scale = scale := by
  have hfits : (if negative then -(m : Int) else m).natAbs < 1 <<< 96 ∧ scale ≤ 28 := by
    refine ⟨?_, hscale⟩
    cases negative with
    | true => rwa [if_pos rfl, Int.natAbs_neg, Int.natAbs_natCast]
    | false => rwa [if_neg Bool.false_ne_true, Int.natAbs_natCast]
  exact ⟨⟨_, scale, hfits.1, hfits.2⟩, by rw [ofMagnitude, of?, dif_pos hfits], rfl, rfl⟩

/-- A sign is read before a digit. -/
theorem read_plain_signed (negative : Bool) {c : Char} (hc : c.isDigit = true) (cs : List Char) :
    readPlain (withSign negative (c :: cs)) = (do
      let (m, scale) ← readMagnitude false false 0 0 (c :: cs)
      ofMagnitude negative m scale) := by
  cases negative with
  | true => rfl
  | false =>
      have hminus : c ≠ '-' := by rintro rfl; exact absurd hc (by decide)
      have hplus : c ≠ '+' := by rintro rfl; exact absurd hc (by decide)
      unfold withSign readPlain
      split
      · rename_i heq
        cases heq
      · rename_i heq
        cases heq
        exact absurd rfl hminus
      · rename_i heq
        cases heq
        exact absurd rfl hplus
      · rfl

/-! ## Texts without an exponent -/

section Plain

variable (negative : Bool) {whole fraction : List Char}
  (hdigits : ∀ c ∈ whole ++ fraction, c.isDigit = true) (hwhole : whole ≠ [])
  (hfits : Nat.ofDigitChars 10 (whole ++ fraction) 0 < bound)
  (hscale : fraction.length ≤ maxScale)
include hdigits hwhole hfits hscale

/-- What follows digits with a point is read with their magnitude and scale. -/
theorem read_plain_pointed (rest : List Char) :
    readPlain (withSign negative (pointed whole fraction ++ rest)) = (do
      let (m, scale) ← readMagnitude (!fraction.isEmpty) true
        (Nat.ofDigitChars 10 (whole ++ fraction) 0) fraction.length rest
      ofMagnitude negative m scale) := by
  rw [← read_magnitude_pointed hdigits hwhole hfits hscale rest]
  unfold pointed
  obtain ⟨c, cs, rfl⟩ := List.exists_cons_of_ne_nil hwhole
  exact read_plain_signed negative (hdigits c (by simp)) _

/-- Digits with a point among them are an amount. -/
theorem read_plain_eq :
    ∃ d, readPlain (withSign negative (pointed whole fraction)) = .ok d ∧
      d.coefficient = (if negative then -(Nat.ofDigitChars 10 (whole ++ fraction) 0 : Int)
        else Nat.ofDigitChars 10 (whole ++ fraction) 0) ∧ d.scale = fraction.length := by
  obtain ⟨d, hd, hvalue⟩ := of_magnitude_eq negative hfits hscale
  refine ⟨d, ?_, hvalue⟩
  have hread := read_plain_pointed negative hdigits hwhole hfits hscale []
  rw [List.append_nil] at hread
  rw [hread]
  exact hd

/-- An exponent cannot be read so. -/
theorem read_plain_mark (rest : List Char) :
    readPlain (withSign negative (pointed whole fraction ++ 'e' :: rest)) =
      .error .unknownCharacter := by
  rw [read_plain_pointed negative hdigits hwhole hfits hscale]
  rfl

end Plain

/-- The value of an amount by its sign and magnitude. -/
theorem value_of_parts {d : Decimal} {negative : Bool} {m scale : Nat}
    (hcoefficient : d.coefficient = (if negative then -(m : Int) else m))
    (hscale : d.scale = scale) :
    d.value = (if negative then -1 else 1) * (m / 10 ^ scale) := by
  rw [value, hcoefficient, hscale]
  cases negative with
  | true => simp [neg_div]
  | false => simp

/-! ## Exponents -/

/-- The magnitude of an amount, by its coefficient. -/
theorem abs_value_eq (d : Decimal) : |d.value| = d.coefficient.natAbs / 10 ^ d.scale := by
  rw [value, abs_div, abs_of_pos (by positivity : (0 : ℚ) < 10 ^ d.scale), ← Int.cast_abs,
    Int.abs_eq_natAbs, Int.cast_natCast]

/-- An amount that is made with the sign of another one is as far from a multiple of this as their
magnitudes are. -/
theorem of_own_magnitude (base : Decimal) {m scale : Nat} (hm : m < bound)
    (hscale : scale ≤ maxScale) (q : ℚ) : ∃ d, ofMagnitude base.isNegative m scale = .ok d ∧
      |d.value - base.value * q| = |m / 10 ^ scale - |base.value| * q| := by
  obtain ⟨d, hd, hcoefficient, hscale⟩ := of_magnitude_eq base.isNegative hm hscale
  refine ⟨d, hd, ?_⟩
  rw [value_of_parts hcoefficient hscale]
  split
  · rename_i hnegative
    rw [abs_of_neg ((is_negative_iff base).mp hnegative), ← abs_neg]
    congr 1
    ring
  · rename_i hnegative
    rw [abs_of_nonneg (nonneg_iff.mp (Bool.not_eq_true _ ▸ hnegative)), one_mul]

/-- Moving the point to the left divides by a power of ten, and rounds what has more than 28
places. -/
theorem shift_left_near (base : Decimal) (places : Nat) :
    ∃ d, shiftLeft base places = .ok d ∧
      |d.value - base.value * (10 ^ places)⁻¹| ≤ 1 / (2 * 10 ^ 28) := by
  unfold shiftLeft
  dsimp only
  split
  · rename_i hfits
    obtain ⟨d, hd, hnear⟩ := of_own_magnitude base base.coefficient_lt hfits (10 ^ places)⁻¹
    refine ⟨d, hd, ?_⟩
    rw [hnear, abs_value_eq, pow_add, ← div_eq_mul_inv, div_div, sub_self, abs_zero]
    positivity
  · rename_i hmore
    obtain ⟨dropped, hdropped⟩ := Nat.exists_eq_add_of_le (Nat.le_of_not_le hmore)
    rw [hdropped, Nat.add_sub_cancel_left]
    have hunit : 0 < Nat.pow 10 dropped := Nat.pow_pos (by decide)
    have herror := Rounding.half_up_error base.coefficient.natAbs hunit
    have hless : Rounding.halfUp base.coefficient.natAbs (Nat.pow 10 dropped) <
        base.coefficient.natAbs + 1 := by
      have hone : (1 : ℚ) ≤ (Nat.pow 10 dropped : Nat) := mod_cast hunit
      have hquotient : (base.coefficient.natAbs : ℚ) / (Nat.pow 10 dropped : Nat) ≤
          base.coefficient.natAbs := div_le_self (by positivity) hone
      have hrounded := (abs_le.mp herror).2
      rw [← Nat.cast_lt (α := ℚ)]
      push_cast
      linarith
    obtain ⟨d, hd, hnear⟩ := of_own_magnitude base
      ((Nat.le_of_lt_succ hless).trans_lt base.coefficient_lt) (le_refl maxScale) (10 ^ places)⁻¹
    refine ⟨d, hd, ?_⟩
    have hscale : |base.value| * (10 ^ places)⁻¹ =
        (base.coefficient.natAbs : ℚ) / (Nat.pow 10 dropped : Nat) / 10 ^ maxScale := by
      rw [abs_value_eq, Nat.pow_eq, Nat.cast_pow, Nat.cast_ofNat, ← div_eq_mul_inv, div_div,
        div_div, ← pow_add, ← pow_add, hdropped, Nat.add_comm]
    rw [hnear, hscale, ← sub_div, abs_div, abs_of_pos (by positivity : (0 : ℚ) < 10 ^ maxScale),
      ← div_div]
    exact div_le_div_of_nonneg_right herror (by positivity)

/-- Moving the point to the right multiplies by a power of ten, if there is room for it. -/
theorem shift_right_value (base : Decimal) {places : Nat}
    (h : base.coefficient.natAbs * 10 ^ (places - base.scale) < bound) :
    ∃ d, shiftRight base places = .ok d ∧ d.value = base.value * 10 ^ places := by
  unfold shiftRight
  dsimp only
  split
  · rename_i hle
    obtain ⟨left, hleft⟩ := Nat.exists_eq_add_of_le hle
    obtain ⟨d, hd, hnear⟩ := of_own_magnitude base base.coefficient_lt
      (Nat.le_trans (Nat.sub_le _ _) base.scale_le) (10 ^ places)
    refine ⟨d, hd, sub_eq_zero.mp (abs_eq_zero.mp (hnear.trans (abs_eq_zero.mpr ?_)))⟩
    rw [abs_value_eq, hleft, Nat.add_sub_cancel_left, pow_add]
    field_simp
    ring
  · rename_i hless
    obtain ⟨more, rfl⟩ := Nat.exists_eq_add_of_le (Nat.le_of_not_le hless)
    rw [Nat.add_sub_cancel_left] at h ⊢
    obtain ⟨d, hd, hnear⟩ := of_own_magnitude base h (Nat.zero_le _) (10 ^ (base.scale + more))
    refine ⟨d, hd, sub_eq_zero.mp (abs_eq_zero.mp (hnear.trans (abs_eq_zero.mpr ?_)))⟩
    rw [abs_value_eq, pow_add]
    push_cast
    field_simp
    ring

/-- Digits with a sign and a point have no exponent mark. -/
theorem not_mark_of_mem {negative : Bool} {whole fraction : List Char} {c : Char}
    (hdigits : ∀ c ∈ whole ++ fraction, c.isDigit = true)
    (hc : c ∈ withSign negative (pointed whole fraction)) : (!isExponentMark c) = true := by
  have hdigit (h : c.isDigit = true) : (!isExponentMark c) = true := by
    have he : c ≠ 'e' := by rintro rfl; exact absurd h (by decide)
    have hE : c ≠ 'E' := by rintro rfl; exact absurd h (by decide)
    simp [isExponentMark, he, hE]
  rw [withSign, pointed, List.mem_append, List.mem_append] at hc
  rcases hc with hc | hc | hc
  · split at hc
    · rw [List.mem_singleton.mp hc]
      decide
    · cases hc
  · exact hdigit (hdigits c (List.mem_append_left _ hc))
  · split at hc
    · cases hc
    · rcases List.mem_cons.mp hc with rfl | hc
      · decide
      · exact hdigit (hdigits c (List.mem_append_right _ hc))

/-- A base and an exponent around a mark. -/
theorem read_scientific_eq {negative : Bool} {whole fraction : List Char} {base : Decimal}
    (hdigits : ∀ c ∈ whole ++ fraction, c.isDigit = true)
    (hbase : readPlain (withSign negative (pointed whole fraction)) = .ok base) (down : Bool)
    {places : Nat} (hplaces : places ≤ maxScale) :
    readScientific (withSign negative (pointed whole fraction ++
        'e' :: (if down then '-' else '+') :: Nat.toDigits 10 places)) =
      if down then shiftLeft base places else shiftRight base places := by
  have hmark : ∀ c ∈ withSign negative (pointed whole fraction), (!isExponentMark c) = true :=
    fun c hc => not_mark_of_mem hdigits hc
  have hlimit : places < exponentLimit := Nat.lt_of_le_of_lt hplaces (by decide)
  obtain ⟨hplain, hplus⟩ := Text.natural_digits hlimit
  have hassoc (rest : List Char) : withSign negative (pointed whole fraction ++ rest) =
      withSign negative (pointed whole fraction) ++ rest := (List.append_assoc _ _ _).symm
  unfold readScientific
  rw [hassoc, List.takeWhile_append_of_pos hmark, List.dropWhile_append_of_pos hmark,
    List.takeWhile_cons_of_neg (by decide), List.dropWhile_cons_of_neg (by decide), List.append_nil,
    hbase, List.drop_one, List.tail_cons]
  cases down with
  | true => simp [hplain, Nat.not_lt_of_le hplaces, bind, Except.bind]
  | false => simp [hplus, Nat.not_lt_of_le hplaces, bind, Except.bind]

/-! ## Digits of every form -/

section Forms

variable (negative : Bool) {whole fraction : List Char} {n : Nat}
  (hdigits : ∀ c ∈ whole ++ fraction, c.isDigit = true) (hwhole : whole ≠ [])
  (hvalue : Nat.ofDigitChars 10 (whole ++ fraction) 0 = n) (hfits : n < bound)
  (hscale : fraction.length ≤ maxScale)
include hdigits hwhole hvalue hfits hscale

/-- Digits with a point are read as a fraction. -/
theorem read_positional :
    ∃ d, readChars (withSign negative (pointed whole fraction)) = .ok d ∧
      d.value = (if negative then -1 else 1) * (n / 10 ^ fraction.length) := by
  obtain ⟨d, hread, hcoefficient, hd⟩ :=
    read_plain_eq negative hdigits hwhole (hvalue ▸ hfits) hscale
  rw [hvalue] at hcoefficient
  exact ⟨d, by rw [readChars, hread], value_of_parts hcoefficient hd⟩

/-- Digits with an exponent are read as a fraction times a power of ten, if this is not too long. -/
theorem read_exponential {down : Bool} {places : Nat} (hplaces : places ≤ maxScale)
    (hroom : down = false → n * 10 ^ (places - fraction.length) < bound) :
    ∃ d, readChars (withSign negative (pointed whole fraction ++
        'e' :: (if down then '-' else '+') :: Nat.toDigits 10 places)) = .ok d ∧
      |d.value - (if negative then -1 else 1) *
        (n / 10 ^ fraction.length * (if down then (10 ^ places)⁻¹ else 10 ^ places))| ≤
          1 / (2 * 10 ^ 28) := by
  obtain ⟨base, hread, hcoefficient, hbase⟩ :=
    read_plain_eq negative hdigits hwhole (hvalue ▸ hfits) hscale
  rw [hvalue] at hcoefficient
  have hmark : (withSign negative (pointed whole fraction ++
      'e' :: (if down then '-' else '+') :: Nat.toDigits 10 places)).any isExponentMark = true := by
    simp [withSign, isExponentMark]
  have hnatAbs : base.coefficient.natAbs = n := by
    rw [hcoefficient]
    split <;> omega
  rw [readChars, read_plain_mark negative hdigits hwhole (hvalue ▸ hfits) hscale]
  dsimp only
  rw [if_pos hmark, read_scientific_eq hdigits hread down hplaces, ← mul_assoc,
    ← value_of_parts hcoefficient hbase]
  cases down with
  | true => exact shift_left_near base places
  | false =>
      obtain ⟨d, hd, hshifted⟩ := shift_right_value base (by rw [hnatAbs, hbase]; exact hroom rfl)
      refine ⟨d, hd, ?_⟩
      rw [hshifted, if_neg Bool.false_ne_true, sub_self, abs_zero]
      positivity

end Forms

/-- A whole number is read with a zero after the point. -/
theorem read_whole_digits (negative : Bool) {n : Nat} (hfits : n * 10 < bound) :
    ∃ d, readChars (withSign negative (Nat.toDigits 10 n ++ ['.', '0'])) = .ok d ∧
      d.value = (if negative then -1 else 1) * n := by
  have hdigits : ∀ c ∈ Nat.toDigits 10 n ++ ['0'], c.isDigit = true := by
    intro c hc
    rcases List.mem_append.mp hc with hc | hc
    · exact Text.is_digit_of_mem hc
    · rw [List.mem_singleton.mp hc]
      decide
  have hvalue : Nat.ofDigitChars 10 (Nat.toDigits 10 n ++ ['0']) 0 = n * 10 := by
    rw [Nat.ofDigitChars_append, Nat.ofDigitChars_ten_toDigits, Nat.mul_comm]
    rfl
  obtain ⟨d, hread, hd⟩ :=
    read_positional negative hdigits Nat.toDigits_ne_nil hvalue hfits (by decide)
  refine ⟨d, hread, ?_⟩
  rw [hd, List.length_singleton, pow_one, Nat.cast_mul, Nat.cast_ofNat, mul_div_cancel_right₀]
  norm_num

/-- A number is read with the point among its digits. -/
theorem read_split_digits (negative : Bool) {n : Nat} (places : Nat) (hfits : n < bound)
    (hplaces : 0 < places) (hbelow : places < (Nat.toDigits 10 n).length)
    (hscale : (Nat.toDigits 10 n).length - places ≤ maxScale) :
    ∃ d, readChars (withSign negative ((Nat.toDigits 10 n).take places ++
        '.' :: (Nat.toDigits 10 n).drop places)) = .ok d ∧
      d.value = (if negative then -1 else 1) *
        (n / 10 ^ ((Nat.toDigits 10 n).length - places)) := by
  have hjoin := List.take_append_drop places (Nat.toDigits 10 n)
  have hdigits : ∀ c ∈ (Nat.toDigits 10 n).take places ++ (Nat.toDigits 10 n).drop places,
      c.isDigit = true := by
    rw [hjoin]
    exact fun c => Text.is_digit_of_mem
  have hwhole : (Nat.toDigits 10 n).take places ≠ [] :=
    List.ne_nil_of_length_pos (by rw [List.length_take]; omega)
  have hfraction : (Nat.toDigits 10 n).drop places ≠ [] :=
    List.ne_nil_of_length_pos (by rw [List.length_drop]; omega)
  have hread := read_positional negative hdigits hwhole
    (by rw [hjoin, Nat.ofDigitChars_ten_toDigits]) hfits (by rwa [List.length_drop])
  rwa [pointed, if_neg hfraction, List.length_drop] at hread

/-- A fraction is read with zeros between the point and its digits. -/
theorem read_padded_digits (negative : Bool) {n : Nat} (zeros : Nat) (hfits : n < bound)
    (hscale : zeros + (Nat.toDigits 10 n).length ≤ maxScale) :
    ∃ d, readChars (withSign negative ('0' :: '.' :: List.replicate zeros '0' ++
        Nat.toDigits 10 n)) = .ok d ∧
      d.value = (if negative then -1 else 1) * (n / 10 ^ (zeros + (Nat.toDigits 10 n).length)) := by
  have hdigits : ∀ c ∈ ['0'] ++ (List.replicate zeros '0' ++ Nat.toDigits 10 n),
      c.isDigit = true := by
    intro c hc
    rw [List.mem_append, List.mem_append, List.mem_singleton, List.mem_replicate] at hc
    rcases hc with rfl | ⟨-, rfl⟩ | hc
    · decide
    · decide
    · exact Text.is_digit_of_mem hc
  have hzeros (rest : List Char) (i : Nat) :
      Nat.ofDigitChars 10 (List.replicate i '0' ++ rest) 0 = Nat.ofDigitChars 10 rest 0 := by
    induction i with
    | zero => rfl
    | succ i ih => exact ih
  have hvalue : Nat.ofDigitChars 10 (['0'] ++ (List.replicate zeros '0' ++ Nat.toDigits 10 n)) 0 =
      n := by
    rw [Nat.ofDigitChars_append]
    exact (hzeros _ zeros).trans (Nat.ofDigitChars_ten_toDigits)
  have hfraction : List.replicate zeros '0' ++ Nat.toDigits 10 n ≠ [] :=
    List.append_ne_nil_of_right_ne_nil _ Nat.toDigits_ne_nil
  have hlength : (List.replicate zeros '0' ++ Nat.toDigits 10 n).length =
      zeros + (Nat.toDigits 10 n).length := by
    rw [List.length_append, List.length_replicate]
  have hread := read_positional negative hdigits (List.cons_ne_nil _ _) hvalue hfits
    (by rwa [hlength])
  rwa [pointed, if_neg hfraction, hlength] at hread

/-- A number is read with the point after its first digit and an exponent. -/
theorem read_scientific_digits (negative : Bool) {n : Nat} {c : Char} {cs : List Char}
    (hcons : Nat.toDigits 10 n = c :: cs) (hfits : n < bound) (hlength : cs.length ≤ maxScale)
    {down : Bool} {places : Nat} (hplaces : places ≤ maxScale)
    (hroom : down = false → n * 10 ^ (places - cs.length) < bound) :
    ∃ d, readChars (withSign negative (pointed [c] cs ++
        'e' :: (if down then '-' else '+') :: Nat.toDigits 10 places)) = .ok d ∧
      |d.value - (if negative then -1 else 1) *
        (n / 10 ^ cs.length * (if down then (10 ^ places)⁻¹ else 10 ^ places))| ≤
          1 / (2 * 10 ^ 28) := by
  have hdigits : ∀ d ∈ [c] ++ cs, d.isDigit = true := by
    rw [List.singleton_append, ← hcons]
    exact fun d => Text.is_digit_of_mem
  have hvalue : Nat.ofDigitChars 10 ([c] ++ cs) 0 = n := by
    rw [List.singleton_append, ← hcons, Nat.ofDigitChars_ten_toDigits]
  exact read_exponential negative hdigits (List.cons_ne_nil _ _) hvalue hfits hlength hplaces hroom

/-- A power is divided by if its exponent is negative. -/
theorem signed_power (power : Int) :
    (if decide (power < 0) = true then ((10 : ℚ) ^ power.natAbs)⁻¹ else 10 ^ power.natAbs) =
      10 ^ power := by
  rcases lt_or_ge power 0 with hless | hmore
  · rw [if_pos (decide_eq_true hless), ← zpow_natCast, ← zpow_neg]
    congr 1
    omega
  · rw [if_neg (by simpa using hmore), ← zpow_natCast]
    congr 1
    omega

/-- A number between the least and the largest amount has an exponent that can be read. -/
theorem exponent_fits {s length : Nat} {k : Int} (hlow : 10 ^ length ≤ s)
    (hhigh : s < 10 ^ (length + 1))
    (hleast : 1 / 10 ^ 28 ≤ (s : ℚ) * 10 ^ k) (hfits : (s : ℚ) * 10 ^ k < 2 ^ 96)
    (hfar : 0 ≤ k ∨ k + length < 0) :
    (k + length).natAbs ≤ maxScale ∧ (decide (k + length < 0) = false →
      s * 10 ^ ((k + length).natAbs - length) < bound) := by
  have hten : (1 : ℚ) < 10 := by norm_num
  have hscale : (0 : ℚ) < 10 ^ k := zpow_pos (by norm_num) k
  unfold maxScale
  rcases lt_or_ge (k + length) 0 with hless | hmore
  · have hpower : (10 : ℚ) ^ (-28 : Int) < 10 ^ (k + length + 1) := by
      have hs : (s : ℚ) < 10 ^ (length + 1) := mod_cast hhigh
      calc (10 : ℚ) ^ (-28 : Int) = 1 / 10 ^ 28 := by norm_num
        _ ≤ s * 10 ^ k := hleast
        _ < 10 ^ (length + 1) * 10 ^ k := mul_lt_mul_of_pos_right hs hscale
        _ = 10 ^ (k + length + 1) := by
            rw [← zpow_natCast, ← zpow_add₀ (by norm_num)]
            congr 1
            push_cast
            ring
    have hexponent := (zpow_lt_zpow_iff_right₀ hten).mp hpower
    refine ⟨by omega, fun hfalse => ?_⟩
    exact absurd hless (of_decide_eq_false hfalse)
  · obtain ⟨i, rfl⟩ := Int.eq_ofNat_of_zero_le (show 0 ≤ k by omega)
    have hplaces : ((i : Int) + length).natAbs = length + i := by omega
    have hbound : s * 10 ^ i < 2 ^ 96 := by
      rw [zpow_natCast] at hfits
      exact_mod_cast hfits
    have hpower : 10 ^ (length + i) < 10 ^ 29 := by
      have hscaled := Nat.mul_le_mul_right (10 ^ i) hlow
      rw [← Nat.pow_add] at hscaled
      exact hscaled.trans_lt (hbound.trans (by decide))
    have hexponent := (Nat.pow_lt_pow_iff_right (by decide)).mp hpower
    rw [hplaces, Nat.add_sub_cancel_left]
    exact ⟨by omega, fun _ => hbound⟩

/-- A decimal fraction of 17 digits is read from its digits in the form that binary numbers have, if
it is not below the least amount or above the largest one. It is rounded to 28 places. -/
theorem read_digits (negative : Bool) {s : Nat} {k : Int} (hs : s < 10 ^ 17)
    (hleast : 1 / 10 ^ 28 ≤ (s : ℚ) * 10 ^ k) (hfits : (s : ℚ) * 10 ^ k < 2 ^ 96) :
    ∃ d, readChars (withSign negative (⟨Nat.toDigits 10 s, k⟩ : Binary64.Digits).chars) = .ok d ∧
      |d.value - (if negative then -1 else 1) * (s * 10 ^ k)| ≤ 1 / (2 * 10 ^ 28) := by
  have hten : (10 : ℚ) ≠ 0 := by norm_num
  have hpos : 0 < s := by
    rcases Nat.eq_zero_or_pos s with rfl | hpos
    · rw [Nat.cast_zero, zero_mul] at hleast
      norm_num at hleast
    · exact hpos
  have hlow := Binary64.pow_length_le hpos
  have hhigh := Binary64.lt_pow_length s
  have hshort : (Nat.toDigits 10 s).length ≤ 17 :=
    (Nat.length_toDigits_le_iff (by decide) (by decide)).mpr hs
  have hlength : 0 < (Nat.toDigits 10 s).length := Nat.length_toDigits_pos
  have hbound : s < bound := hs.trans (by decide)
  have hexact {d : Decimal} {q : ℚ} (h : d.value = q) : |d.value - q| ≤ 1 / (2 * 10 ^ 28) := by
    rw [h, sub_self, abs_zero]
    positivity
  -- A fraction is divided by a power of ten.
  have hfraction {places : Nat} (hplaces : k = -places) : (s : ℚ) / 10 ^ places = s * 10 ^ k := by
    rw [hplaces, zpow_neg, zpow_natCast, div_eq_mul_inv]
  unfold Binary64.Digits.chars
  simp only [Bool.and_eq_true, decide_eq_true_eq]
  split
  · rename_i hform
    obtain ⟨i, rfl⟩ := Int.eq_ofNat_of_zero_le hform.1
    have hless : s * 10 ^ i * 10 < bound := by
      have hmul : s * 10 ^ i < 10 ^ ((Nat.toDigits 10 s).length + i) := by
        rw [Nat.pow_add]
        exact Nat.mul_lt_mul_of_pos_right hhigh (Nat.pow_pos (by decide))
      have hpow : 10 ^ ((Nat.toDigits 10 s).length + i) ≤ 10 ^ 16 :=
        Nat.pow_le_pow_right (by decide) (by omega)
      have hlimit : 10 ^ 16 * 10 < bound := by decide
      omega
    obtain ⟨d, hread, hd⟩ := read_whole_digits negative hless
    rw [Binary64.digits_mul_pow hpos] at hread
    refine ⟨d, hread, hexact ?_⟩
    rw [hd, zpow_natCast]
    push_cast
    rfl
  rename_i hwhole
  split
  · rename_i hform
    obtain ⟨d, hread, hd⟩ := read_split_digits negative
      (k + (Nat.toDigits 10 s).length).toNat hbound (by omega) (by omega)
      (by unfold maxScale; omega)
    refine ⟨d, hread, hexact ?_⟩
    rw [hd, hfraction (by omega)]
  rename_i hsplit
  split
  · rename_i hform
    obtain ⟨d, hread, hd⟩ := read_padded_digits negative
      (-(k + (Nat.toDigits 10 s).length)).toNat hbound (by unfold maxScale; omega)
    refine ⟨d, hread, hexact ?_⟩
    rw [hd, hfraction (by omega)]
  · rename_i hsmall
    obtain ⟨c, cs, hcons⟩ := List.exists_cons_of_ne_nil (Nat.toDigits_ne_nil (n := s) (b := 10))
    have hdigits : (Nat.toDigits 10 s).length = cs.length + 1 := by rw [hcons, List.length_cons]
    rw [hdigits, Nat.add_sub_cancel] at hlow
    rw [hdigits] at hhigh
    obtain ⟨hplaces, hroom⟩ := exponent_fits hlow hhigh hleast hfits (by omega)
    obtain ⟨d, hread, hd⟩ := read_scientific_digits negative hcons hbound
      (by unfold maxScale; omega) hplaces hroom
    have hpower : k + ((Nat.toDigits 10 s).length : Int) - 1 = k + cs.length := by omega
    have hvalue : (s : ℚ) / 10 ^ cs.length *
        (if decide (k + cs.length < 0) = true then (10 ^ (k + cs.length).natAbs)⁻¹
          else 10 ^ (k + cs.length).natAbs) = s * 10 ^ k := by
      rw [signed_power, zpow_add₀ hten, zpow_natCast, mul_comm (10 ^ k : ℚ), ← mul_assoc,
        div_mul_cancel₀ _ (pow_ne_zero _ hten)]
    refine ⟨d, ?_, hvalue ▸ hd⟩
    rw [hpower, hcons, ← hread]
    simp only [decide_eq_true_eq]
    cases cs <;> rfl

/-- An amount is a number of 28 places if it is this number when rounded. -/
theorem value_of_near {d : Decimal} {c : Int} {k : Int} (hk : -28 ≤ k)
    (h : |d.value - c * 10 ^ k| ≤ 1 / (2 * 10 ^ 28)) : d.value = c * 10 ^ k := by
  have hunit : (0 : ℚ) < 10 ^ 28 := by norm_num
  obtain ⟨i, hi⟩ := Int.le.dest hk
  have hnumber : (c : ℚ) * 10 ^ k = (c * 10 ^ i : Int) / 10 ^ 28 := by
    have hplaces : (10 : ℚ) ^ (-28 : Int) = 1 / 10 ^ 28 := by norm_num
    rw [← hi, zpow_add₀ (by norm_num), zpow_natCast, hplaces]
    push_cast
    ring
  have hvalue : d.value = d.coefficientAt 28 / 10 ^ 28 :=
    (eq_div_iff hunit.ne').mpr (coefficient_at_eq d d.scale_le).symm
  rw [hvalue, hnumber] at h ⊢
  rw [← sub_div, abs_div, abs_of_pos hunit, div_le_div_iff₀ hunit (by norm_num)] at h
  have hless : |d.coefficientAt 28 - c * 10 ^ i| < 1 := by
    have hhalf : |((d.coefficientAt 28 - c * 10 ^ i : Int) : ℚ)| < 1 := by
      push_cast at h ⊢
      linarith
    exact_mod_cast hhalf
  rw [sub_eq_zero.mp (Int.abs_lt_one_iff.mp hless)]

end Rewards.Decimal
