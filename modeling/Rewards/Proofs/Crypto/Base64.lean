import Mathlib.Data.List.GetD
import Mathlib.Data.List.Nodup
import Rewards.Crypto.Base64

/-!
# Bytes and their base 64

The text of bytes is decoded to these bytes, `decode_encode`, and only characters of the alphabet
are decoded, `mem_of_decode`.
-/

namespace Rewards.Crypto.Base64

/-- The digits of bytes have six bits each. -/
theorem digits_lt (bytes : List UInt8) : ∀ d ∈ digits bytes, d < 64 := by
  fun_induction digits bytes with
  | case1 => simp
  | case2 a =>
      have ha := a.toNat_lt
      simp only [List.mem_cons, List.not_mem_nil, or_false]
      omega
  | case3 a b =>
      have ha := a.toNat_lt
      have hb := b.toNat_lt
      simp only [List.mem_cons, List.not_mem_nil, or_false]
      omega
  | case4 a b c rest ih =>
      have ha := a.toNat_lt
      have hb := b.toNat_lt
      have hc := c.toNat_lt
      simp only [List.mem_cons]
      rintro d (rfl | rfl | rfl | rfl | hd)
      · omega
      · omega
      · omega
      · omega
      · exact ih d hd

/-- A byte is that of its number. -/
theorem of_nat_eq {n : Nat} {b : UInt8} (h : n = b.toNat) : UInt8.ofNat n = b := by
  rw [h, UInt8.ofNat_toNat]

/-- The digits of bytes give the bytes back. -/
theorem bytes_digits (bytes : List UInt8) : bytes? (digits bytes) = some bytes := by
  fun_induction digits bytes with
  | case1 => rfl
  | case2 a =>
      have ha := a.toNat_lt
      rw [bytes?, if_pos (by omega), of_nat_eq (by omega : _ = a.toNat)]
  | case3 a b =>
      have ha := a.toNat_lt
      have hb := b.toNat_lt
      rw [bytes?, if_pos (by omega), of_nat_eq (by omega : _ = a.toNat),
        of_nat_eq (by omega : _ = b.toNat)]
  | case4 a b c rest ih =>
      have ha := a.toNat_lt
      have hb := b.toNat_lt
      have hc := c.toNat_lt
      rw [bytes?, ih, Option.map_some, of_nat_eq (by omega : _ = a.toNat),
        of_nat_eq (by omega : _ = b.toNat), of_nat_eq (by omega : _ = c.toNat)]

/-- The characters of an alphabet give their places back. -/
theorem places_of_chars {alphabet : List Char} (hnodup : alphabet.Nodup)
    (hlength : alphabet.length = 64) {ds : List Nat} (hds : ∀ d ∈ ds, d < 64) :
    (ds.map fun d => alphabet.getD d 'A').mapM (fun c => alphabet.idxOf? c) = some ds := by
  induction ds with
  | nil => rfl
  | cons d ds ih =>
      have hd : d < alphabet.length := by
        rw [hlength]
        exact hds d List.mem_cons_self
      have hplace : alphabet.idxOf? (alphabet.getD d 'A') = some d := by
        rw [List.getD_eq_getElem _ _ hd, List.idxOf?_eq_some_iff]
        refine ⟨hd, rfl, fun j hj => ?_⟩
        simpa using fun heq => absurd ((hnodup.getElem_inj_iff).mp heq) (Nat.ne_of_lt hj)
      rw [List.map_cons, List.mapM_cons, hplace, ih fun e he => hds e (List.mem_cons_of_mem d he)]
      rfl

/-- The text of bytes is decoded to the bytes. -/
theorem decode_encode {alphabet : List Char} (hnodup : alphabet.Nodup)
    (hlength : alphabet.length = 64) (bytes : List UInt8) :
    decode alphabet (encode alphabet bytes) = some bytes := by
  rw [decode, encode, places_of_chars hnodup hlength (digits_lt bytes)]
  exact bytes_digits bytes

/-- Only characters of the alphabet are decoded. -/
theorem mem_of_decode {alphabet cs : List Char} {bytes : List UInt8}
    (h : decode alphabet cs = some bytes) : ∀ c ∈ cs, c ∈ alphabet := by
  obtain ⟨ds, hds, -⟩ := Option.bind_eq_some_iff.mp h
  clear h
  induction cs generalizing ds with
  | nil => simp
  | cons c cs ih =>
      rw [List.mapM_cons] at hds
      obtain ⟨d, hd, hrest⟩ := Option.bind_eq_some_iff.mp hds
      obtain ⟨rest, hrest, -⟩ := Option.bind_eq_some_iff.mp hrest
      intro x hx
      rcases List.mem_cons.mp hx with rfl | hx
      · by_contra hmem
        rw [List.idxOf?_eq_none_iff.mpr hmem] at hd
        cases hd
      · exact ih rest hrest x hx

/-- The characters of bytes are those of the alphabet. -/
theorem mem_of_encode {alphabet : List Char} (hlength : alphabet.length = 64) (bytes : List UInt8) :
    ∀ c ∈ encode alphabet bytes, c ∈ alphabet := by
  intro c hc
  obtain ⟨d, hd, rfl⟩ := List.mem_map.mp hc
  have hd : d < alphabet.length := by
    rw [hlength]
    exact digits_lt bytes d hd
  rw [List.getD_eq_getElem _ _ hd]
  exact List.getElem_mem hd

/-! ## The alphabet of tokens -/

theorem url_alphabet_length : urlAlphabet.length = 64 := by
  decide +kernel

theorem url_alphabet_nodup : urlAlphabet.Nodup := by
  decide +kernel

/-- A point is no character of the alphabet, so it can stand between texts of bytes. -/
theorem point_not_mem : '.' ∉ urlAlphabet := by
  decide +kernel

end Rewards.Crypto.Base64
