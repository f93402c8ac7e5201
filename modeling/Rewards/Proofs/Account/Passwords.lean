import Mathlib.Data.List.TakeWhile
import Rewards.Account.Credentials
import Rewards.Crypto.PasswordHash
import Rewards.Proofs.Text.Bytes

/-!
# Passwords and their keys

A key repeats a password and a zero byte after it up to a fixed length. The policy for passwords
keeps them short and free of zeros, so a key begins with the whole password, and its first zero
shows where the password ends. The main statement is `password_of_key`: different passwords have
different keys.
-/

namespace Rewards

/-! ## Keys -/

namespace Crypto.PasswordHash

/-- The key of a short password begins with the whole password and the zero byte after it. -/
theorem password_prefix {password : String} (hshort : (Text.utf8 password).length < keyLength) :
    Text.utf8 password ++ [0] <+: key password := by
  rw [List.prefix_iff_eq_take]
  refine List.ext_getElem ?_ fun i hi hkey => ?_
  · rw [List.length_take, key, List.length_map, List.length_range, List.length_append,
      List.length_singleton]
    omega
  · simp only [key, List.getElem_take, List.getElem_map, List.getElem_range,
      Nat.mod_eq_of_lt hi]
    exact (List.getElem_eq_getD 0)

/-- The bytes of a password without zeros stand in its key before the first zero. -/
theorem utf8_of_key {password : String} (hshort : (Text.utf8 password).length < keyLength)
    (hnonzero : ∀ b ∈ Text.utf8 password, b ≠ 0) :
    (key password).takeWhile (· ≠ 0) = Text.utf8 password := by
  obtain ⟨rest, hkey⟩ := password_prefix hshort
  rw [← hkey, List.append_assoc, List.takeWhile_append_of_pos (by simpa using hnonzero),
    List.singleton_append, List.takeWhile_cons_of_neg (by simp), List.append_nil]

end Crypto.PasswordHash

/-! ## The policy -/

namespace Credentials

open Crypto (PasswordHash.keyLength PasswordHash.key PasswordHash.utf8_of_key)

variable {c d : Credentials}

/-- A password that is accepted is short, and made of letters and digits. -/
theorem password_of_faults (h : c.faults = []) :
    c.password.toList.length ≤ 50 ∧ c.password.toList.all Char.isAlphanum = true := by
  have hpassword := (List.append_eq_nil_iff.mp h).2
  obtain ⟨hlength, hall⟩ := List.append_eq_nil_iff.mp hpassword
  rw [ite_eq_left_iff] at hlength hall
  refine ⟨?_, ?_⟩
  · by_contra hlong
    exact List.cons_ne_nil _ _ (hlength fun hbounds => hlong hbounds.2)
  · by_contra hother
    exact List.cons_ne_nil _ _ (hall hother)

/-- The bytes of a password that is accepted fit a key, and none is zero. -/
theorem password_fits (h : c.faults = []) :
    (Text.utf8 c.password).length < PasswordHash.keyLength ∧
      ∀ b ∈ Text.utf8 c.password, b ≠ 0 := by
  obtain ⟨hlength, hall⟩ := password_of_faults h
  obtain ⟨hbytes, hnonzero⟩ := Text.utf8_of_all_alphanum hall
  refine ⟨?_, hnonzero⟩
  rw [hbytes, PasswordHash.keyLength]
  omega

/-- Passwords that are accepted and have the same key are the same. -/
theorem password_of_key (hc : c.faults = []) (hd : d.faults = [])
    (hkey : PasswordHash.key c.password = PasswordHash.key d.password) :
    c.password = d.password := by
  obtain ⟨hshort, hnonzero⟩ := password_fits hc
  obtain ⟨hothershort, hothernonzero⟩ := password_fits hd
  -- Both passwords are read off the key, up to its first zero.
  apply Text.utf8_injective
  rw [← PasswordHash.utf8_of_key hshort hnonzero, hkey,
    PasswordHash.utf8_of_key hothershort hothernonzero]

end Credentials

end Rewards
