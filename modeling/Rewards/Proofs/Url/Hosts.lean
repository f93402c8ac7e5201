import Rewards.Proofs.Json.Texts
import Rewards.Proofs.Text.Encoding
import Rewards.Proofs.Text.Splitting
import Rewards.Url.Basic

/-!
# Blanks after an authority

Blanks around an address do not count, but inside it they do. After an authority they belong to its
host or to its port, and neither can have one: a domain keeps its blanks when its escapes are
decoded, `blank_of_decoded`. So no such authority is read, `read_authority_blanks`.
-/

namespace Rewards.Url

/-- A text of characters up to the blank. -/
def IsBlankText (cs : List Char) : Prop := cs ≠ [] ∧ ∀ c ∈ cs, c.toNat ≤ 32

variable {blanks : List Char}

/-- A character after the blank does not occur in such a text. -/
theorem IsBlankText.not_mem (h : IsBlankText blanks) {c : Char} (hc : 32 < c.toNat) : c ∉ blanks :=
  fun hmem => Nat.not_le_of_lt hc (h.2 c hmem)

namespace Host

/-- What decoding escapes keeps: a byte that no escape has. -/
theorem mem_unescape {b : UInt8} {bytes : List UInt8} (h : b ∈ bytes) (hpercent : b ≠ 37)
    (hdigit : Uuid.isHexDigit (Char.ofNat b.toNat) = false) : b ∈ unescape bytes := by
  fun_induction unescape bytes with
  | case1 first second rest x y hhex ih =>
      rw [Bool.and_eq_true] at hhex
      have hother {c : UInt8} (hc : Uuid.isHexDigit (Char.ofNat c.toNat) = true) : b ≠ c := by
        rintro rfl
        rw [hdigit] at hc
        cases hc
      simp only [List.mem_cons, hpercent, hother hhex.1, hother hhex.2, false_or] at h
      exact List.mem_cons_of_mem _ (ih h)
  | case2 first second rest x y hhex ih =>
      exact List.mem_cons_of_mem _ (ih ((List.mem_cons.mp h).resolve_left hpercent))
  | case3 first rest _ ih =>
      rcases List.mem_cons.mp h with rfl | hrest
      · exact List.mem_cons_self
      · exact List.mem_cons_of_mem _ (ih hrest)
  | case4 => cases h

/-- A byte of ASCII among the bytes of a character is that of the character. -/
theorem char_of_byte {b : UInt8} {c : Char} (h : b ∈ String.utf8EncodeChar c)
    (hb : b.toNat < 0x80) :
    c.toNat = b.toNat := by
  obtain ⟨a, tail, hencoded, hsequence⟩ := Text.sequence_encode c
  rw [hencoded] at h
  cases hsequence with
  | one ha =>
      obtain rfl := List.mem_singleton.mp h
      exact ha.symm
  | two ha hsecond =>
      unfold Text.Continues at hsecond
      simp only [List.mem_cons, List.not_mem_nil, or_false] at h
      rcases h with rfl | rfl <;> omega
  | three ha hsecond _ hthird =>
      unfold Text.Continues at hsecond hthird
      simp only [List.mem_cons, List.not_mem_nil, or_false] at h
      rcases h with rfl | rfl | rfl <;> omega
  | four ha hsecond _ hthird _ hfourth =>
      unfold Text.Continues at hsecond hthird hfourth
      simp only [List.mem_cons, List.not_mem_nil, or_false] at h
      rcases h with rfl | rfl | rfl | rfl <;> omega

/-- A domain keeps its blanks when its escapes are decoded. -/
theorem blank_of_decoded (h : IsBlankText blanks) {cs : List Char} {text : String}
    (hdecode : Text.decodeUtf8 (unescape (Text.utf8 (String.ofList (cs ++ blanks)))) = .ok text) :
    ∃ c ∈ text.toList, c.toNat ≤ 32 := by
  obtain ⟨blank, hmem⟩ := List.exists_mem_of_ne_nil _ h.1
  have hsmall := h.2 blank hmem
  have hascii : Text.IsAscii blank := Nat.lt_of_le_of_lt hsmall (by decide)
  have hbyte := Text.byte_to_nat hascii
  have hdigit : ∀ n ≤ 32, Uuid.isHexDigit (Char.ofNat n) = false := by decide
  have hin : Json.byte blank ∈ Text.utf8 (String.ofList (cs ++ blanks)) := by
    have hsingle := Text.bytes_cons hascii []
    rw [Text.bytes, List.flatMap_singleton] at hsingle
    rw [Text.utf8_of_list, Text.bytes, List.mem_flatMap]
    exact ⟨blank, List.mem_append_right _ hmem, hsingle ▸ List.mem_cons_self⟩
  have hpercent : Json.byte blank ≠ 37 := by
    rw [ne_eq, ← UInt8.toNat_inj, hbyte]
    exact Nat.ne_of_lt (Nat.lt_of_le_of_lt hsmall (by decide))
  have hkept := mem_unescape hin hpercent (by rw [hbyte]; exact hdigit _ hsmall)
  rw [Text.decode_utf8_iff.mp hdecode, Text.utf8_of_chars, Text.bytes, List.mem_flatMap] at hkept
  obtain ⟨c, hc, hencoded⟩ := hkept
  refine ⟨c, hc, ?_⟩
  rw [char_of_byte hencoded (by rw [hbyte]; exact hascii), hbyte]
  exact hsmall

/-- No host ends in blanks. -/
theorem read_blanks (h : IsBlankText blanks) (cs : List Char) (host : Host) :
    read (cs ++ blanks) ≠ .ok host := by
  intro hread
  unfold read at hread
  split at hread
  · cases hread
  split at hread
  · have hlast : ((cs ++ blanks).getLast? == some ']') = false := by
      rw [beq_eq_false_iff_ne, List.getLast?_append_of_ne_nil _ h.1]
      exact fun hend => h.not_mem (by decide) (List.mem_of_getLast? hend)
    rw [readIpv6, hlast] at hread
    cases hread
  · unfold readDomain at hread
    split at hread
    · cases hread
    rename_i text hdecode
    obtain ⟨c, hc, hsmall⟩ := blank_of_decoded h hdecode
    have hblank : ∀ n ≤ 32, isIgnored (Char.ofNat n) = false ∧
        isForbidden (plainForm (Char.ofNat n)) = true := by decide
    obtain ⟨hcounts, hforbidden⟩ := hblank c.toNat hsmall
    rw [Char.ofNat_toNat] at hcounts hforbidden
    have hany : ((text.toList.filter (!isIgnored ·)).map plainForm).any
        (fun c => isForbidden c || isDisallowed c) = true := by
      rw [List.any_eq_true]
      refine ⟨plainForm c, List.mem_map_of_mem (List.mem_filter.mpr ⟨hc, ?_⟩), ?_⟩
      · rw [hcounts, Bool.not_false]
      · rw [hforbidden, Bool.true_or]
    simp only [hany, if_true] at hread
    cases hread

end Host

/-- No port ends in blanks. -/
theorem read_port_blanks (h : IsBlankText blanks) (cs : List Char) (default port : Option Nat) :
    readPort (cs ++ blanks) default ≠ .ok port := by
  obtain ⟨b, hb⟩ := List.exists_mem_of_ne_nil _ h.1
  have hnonempty : (cs ++ blanks).isEmpty = false := by
    rw [List.isEmpty_eq_false_iff]
    exact List.append_ne_nil_of_right_ne_nil _ h.1
  have hdigits : (cs ++ blanks).all Char.isDigit = false := by
    rw [List.all_eq_false]
    refine ⟨b, List.mem_append_right _ hb, fun hdigit => ?_⟩
    have hzero := (Char.isDigit_iff_toNat.mp hdigit).1
    exact absurd (Nat.le_trans hzero (h.2 b hb)) (by decide)
  intro hread
  rw [readPort, hnonempty, hdigits] at hread
  cases hread

/-- Blanks after a host and a port belong to the port, or to the host if there is no port. -/
theorem split_host_blanks (h : IsBlankText blanks) (inBrackets : Bool) (cs : List Char) :
    (∃ name, splitHost inBrackets (cs ++ blanks) = (name ++ blanks, [])) ∨
    (∃ name port, splitHost inBrackets (cs ++ blanks) = (name, ':' :: (port ++ blanks))) := by
  induction cs generalizing inBrackets with
  | nil =>
      have hnone := h.not_mem (c := ':') (by decide)
      refine .inl ⟨[], ?_⟩
      rw [List.nil_append]
      clear h
      induction blanks generalizing inBrackets with
      | nil => rfl
      | cons b blanks ih =>
          rw [List.mem_cons, not_or] at hnone
          have hb : (decide (b = ':') && !inBrackets) = false := by
            rw [decide_eq_false (Ne.symm hnone.1), Bool.false_and]
          rw [splitHost, hb, if_neg Bool.false_ne_true, ih _ hnone.2]
  | cons c cs ih =>
      rw [List.cons_append, splitHost]
      split
      · rename_i hcolon
        rw [Bool.and_eq_true, decide_eq_true_eq] at hcolon
        exact .inr ⟨[], cs, by rw [hcolon.1]⟩
      · rcases ih (c = '[' || (inBrackets && c ≠ ']')) with ⟨name, hname⟩ | ⟨name, port, hname⟩
        · exact .inl ⟨c :: name, by rw [hname]; rfl⟩
        · exact .inr ⟨c :: name, port, by rw [hname]⟩

/-- What comes after the user info does not end in blanks. -/
theorem read_location_blanks (h : IsBlankText blanks) (location : List Char)
    (userInfo : Option (List Char)) (default : Option Nat)
    (parts : Option (List Char) × Host × Option Nat) :
    (do
      let (name, tail) := splitHost false (location ++ blanks)
      let host ← Host.read name
      let port ← readPort (tail.drop 1) default
      return (userInfo, host, port)) ≠ .ok parts := by
  intro hread
  rcases split_host_blanks h false location with ⟨name, hsplit⟩ | ⟨name, port, hsplit⟩
  · rw [hsplit] at hread
    dsimp only at hread
    cases hhost : Host.read (name ++ blanks) with
    | error e =>
        rw [hhost] at hread
        cases hread
    | ok host => exact Host.read_blanks h name host hhost
  · rw [hsplit] at hread
    dsimp only at hread
    cases hhost : Host.read name with
    | error e =>
        rw [hhost] at hread
        cases hread
    | ok host =>
        cases hport : readPort (port ++ blanks) default with
        | error e =>
            rw [hhost, List.drop_one, List.tail_cons, hport] at hread
            cases hread
        | ok value => exact read_port_blanks h port default value hport

/-- No authority ends in blanks. -/
theorem read_authority_blanks {scheme : String} (hspecial : isSpecial scheme = true)
    (h : IsBlankText blanks) (cs : List Char) (parts : Option (List Char) × Host × Option Nat) :
    readAuthority scheme (cs ++ blanks) ≠ .ok parts := by
  intro hread
  unfold readAuthority at hread
  rw [hspecial] at hread
  cases hsplit : Text.splitLast? '@' (cs ++ blanks) with
  | none =>
      rw [hsplit] at hread
      exact read_location_blanks h cs _ _ _ hread
  | some around =>
      obtain ⟨before, after⟩ := around
      rw [hsplit] at hread
      -- The blanks come after the user info.
      obtain ⟨hwhole, -⟩ := Text.split_last_eq_some_iff.mp hsplit
      have hmark : '@' ∉ blanks := h.not_mem (by decide)
      obtain ⟨location, rfl⟩ : ∃ location, after = location ++ blanks := by
        rcases List.append_eq_append_iff.mp hwhole with ⟨m, -, hm⟩ | ⟨m, -, hm⟩
        · exact absurd (hm ▸ List.mem_append_right m List.mem_cons_self) hmark
        · cases m with
          | nil =>
              rw [List.nil_append] at hm
              exact absurd (hm ▸ List.mem_cons_self) hmark
          | cons c m =>
              cases hm
              exact ⟨m, rfl⟩
      exact read_location_blanks h location _ _ _ hread

end Rewards.Url
