import Rewards.Json.Record
import Rewards.Proofs.Json.Strings

/-!
# Reading records that were written as objects

`Fills` follows the members of an object one by one: a member of a known name is read into the
record, a member of another name is skipped. The record that comes out is the one that is read from
the text of the object, `takes_record`.
-/

namespace Rewards.Json.Reader

open Text (bytes IsAscii bytes_append bytes_cons length_le_bytes)

variable {σ : Type} {fields : List (Field σ)}

/-- The members of an object fill in a record. -/
inductive Fills (fields : List (Field σ)) : σ → List (String × Value) → σ → Prop where
  | done (r : σ) : Fills fields r [] r
  | known {name : String} {value : Value} {field : Field σ} {members : List (String × Value)}
      {r s t : σ} :
      IsPlainText name → fields.find? (·.name == name) = some field → field.isSet r = false →
      Takes (field.read r) value.chars s → Fills fields s members t →
      Fills fields r ((name, value) :: members) t
  | other {name : String} {value : Value} {members : List (String × Value)} {r t : σ} :
      IsPlainText name → fields.find? (·.name == name) = none →
      Takes ignored value.chars () → Fills fields r members t →
      Fills fields r ((name, value) :: members) t

/-- The brace that ends an object is left. -/
theorem record_fields_end (fuel : Nat) (isFirst : Bool) (r : σ) (rest : List UInt8) :
    StateT.run (recordFields fields (fuel + 1) isFirst r) (byte '\x7d' :: rest) =
      .ok (r, byte '\x7d' :: rest) := by
  unfold recordFields
  rw [run_bind_ok (peek_byte (by decide) rest)]
  rfl

/-- What follows the name of a member. -/
def recordMember (fields : List (Field σ)) (fuel : Nat) (r : σ) (name : String) : Reader σ :=
  match fields.find? (·.name == name) with
  | some field => do
      if field.isSet r then throw (.duplicateField field.name)
      mark ':'
      let r ← field.read r
      recordFields fields fuel false r
  | none => do
      mark ':'
      ignored
      recordFields fields fuel false r

/-- A member begins with its name, after a comma if it is not the first one. -/
theorem record_fields_member (fuel : Nat) (isFirst : Bool) (r : σ) (name : String)
    (rest : List UInt8) :
    StateT.run (recordFields fields (fuel + 1) isFirst r)
        (bytes ((if isFirst then [] else [',']) ++ textChars name) ++ rest) =
      StateT.run (recordMember fields fuel r name) rest := by
  have hquote := takes_mark (c := '"') (by decide)
  have hcons : textChars name = '"' :: (name.toList.flatMap escapedChar ++ ['"']) := rfl
  have hkey : StateT.run (do mark '"'; let key ← stringTail; recordMember fields fuel r key)
      (bytes (textChars name) ++ rest) = StateT.run (recordMember fields fuel r name) rest := by
    rw [hcons, ← List.singleton_append, bytes_append, List.append_assoc,
      run_bind_ok (hquote _), run_bind_ok (takes_text_tail name _)]
  unfold recordFields
  cases isFirst with
  | true =>
      rw [if_pos rfl, List.nil_append, ← hkey, hcons,
        run_bind_ok (peek_mark (by decide) _ _)]
      rfl
  | false =>
      rw [if_neg Bool.false_ne_true, List.singleton_append, run_bind_ok (peek_mark (by decide) _ _),
        ← List.singleton_append, bytes_append, List.append_assoc, ← hkey]
      exact run_bind_ok (takes_skip (c := ',') (by decide) _) _

/-- What follows the first member of an object, from its colon on. -/
theorem run_record_fields_cons (fuel : Nat) (isFirst : Bool) (r : σ) (name : String)
    (value : Value) (members : List (String × Value)) (rest : List UInt8) :
    StateT.run (recordFields fields (fuel + 1) isFirst r)
        (bytes (Value.fieldChars isFirst ((name, value) :: members)) ++ rest) =
      StateT.run (recordMember fields fuel r name)
        (bytes [':'] ++
          (bytes value.chars ++ (bytes (Value.fieldChars false members) ++ rest))) := by
  have htext : bytes (':' :: value.chars ++ Value.fieldChars false members) =
      bytes [':'] ++ (bytes value.chars ++ bytes (Value.fieldChars false members)) := by
    rw [← List.singleton_append, bytes_append, bytes_append, List.append_assoc]
  rw [Value.fieldChars, List.append_assoc, bytes_append, List.append_assoc,
    record_fields_member fuel isFirst r name, htext, List.append_assoc, List.append_assoc]

/-- The members of an object are read up to the brace that ends it. -/
theorem Fills.run {r t : σ} {members : List (String × Value)} (h : Fills fields r members t)
    {fuel : Nat} (hfuel : members.length < fuel) (isFirst : Bool) (rest : List UInt8) :
    StateT.run (recordFields fields fuel isFirst r)
        (bytes (Value.fieldChars isFirst members) ++ byte '\x7d' :: rest) =
      .ok (t, byte '\x7d' :: rest) := by
  have hcolon := takes_mark (c := ':') (by decide)
  induction h generalizing fuel isFirst with
  | done r =>
      obtain ⟨more, rfl⟩ := Nat.exists_eq_succ_of_ne_zero (Nat.ne_of_gt hfuel)
      exact record_fields_end more isFirst r rest
  | @known name value field members r s t _ hfield hset hread hmembers ih =>
      obtain ⟨more, rfl⟩ := Nat.exists_eq_succ_of_ne_zero (Nat.ne_zero_of_lt hfuel)
      rw [run_record_fields_cons more isFirst r name, recordMember, hfield]
      simp only [hset, Bool.false_eq_true, if_false]
      refine (run_bind_ok (hcolon _) _).trans ((run_bind_ok (hread _) _).trans ?_)
      exact ih (Nat.lt_of_succ_lt_succ hfuel) false
  | @other name value members r t _ hfield hskip hmembers ih =>
      obtain ⟨more, rfl⟩ := Nat.exists_eq_succ_of_ne_zero (Nat.ne_zero_of_lt hfuel)
      rw [run_record_fields_cons more isFirst r name, recordMember, hfield]
      refine (run_bind_ok (hcolon _) _).trans ((run_bind_ok (hskip _) _).trans ?_)
      exact ih (Nat.lt_of_succ_lt_succ hfuel) false

/-- An object has at least as many bytes as members. -/
theorem length_members_le (isFirst : Bool) (members : List (String × Value)) :
    members.length ≤ (bytes (Value.fieldChars isFirst members)).length := by
  refine Nat.le_trans ?_ (length_le_bytes _)
  induction members generalizing isFirst with
  | nil => exact Nat.zero_le _
  | cons member members ih =>
      obtain ⟨name, value⟩ := member
      have hrest := ih false
      rw [Value.fieldChars]
      simp only [List.length_append, List.length_cons]
      omega

/-- A record is read from the text of an object whose members fill it in. -/
theorem takes_record {r t : σ} {members : List (String × Value)} (h : Fills fields r members t)
    (hcomplete : missingField? fields t = none) (expected : String) :
    Takes (record expected fields r) (Value.object members).chars t := by
  have hopen := takes_skip (c := '\x7b') (by decide)
  have hclose := takes_mark (c := '\x7d') (by decide)
  have htext (rest : List UInt8) : bytes (Value.fieldChars true members ++ ['\x7d']) ++ rest =
      bytes (Value.fieldChars true members) ++ byte '\x7d' :: rest := by
    rw [bytes_append, bytes_cons (by decide), List.append_assoc]
    rfl
  rw [Value.chars, List.cons_append]
  refine takes_peek (by decide) (hopen.bind ?_)
  intro rest
  have hfuel : members.length <
      (bytes (Value.fieldChars true members) ++ byte '\x7d' :: rest).length + 1 := by
    have hlength := length_members_le true members
    rw [List.length_append]
    omega
  refine (congrArg _ (htext rest)).trans ?_
  refine (run_bind_ok (a := bytes (Value.fieldChars true members) ++ byte '\x7d' :: rest) rfl
    _).trans ((run_bind_ok (h.run hfuel true rest) _).trans ?_)
  simp only [hcomplete]
  have hmark := hclose rest
  rw [bytes_cons (by decide)] at hmark
  exact run_bind_ok hmark _

end Rewards.Json.Reader
