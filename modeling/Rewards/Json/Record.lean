import Rewards.Json.Reader

/-!
# Reading records

A record is written as a map with its fields in any order, or as a sequence of its fields in their
own order. Fields of other names are skipped, a field may stand once, and the first field that is
missing is reported.
-/

namespace Rewards.Json

/-- How a field may be absent: never, from a map only, or from both forms. -/
inductive Presence where
  | required
  | nullable
  | defaulted
deriving DecidableEq

/-- A field of a record that is being filled in: its name, whether the record has it already, and
how it is read into the record. -/
structure Field (σ : Type) where
  name : String
  presence : Presence
  isSet : σ → Bool
  read : σ → Reader σ

namespace Reader

/-- Read the fields of a map after its opening brace. -/
def recordFields {σ : Type} (fields : List (Field σ)) : Nat → Bool → σ → Reader σ
  | 0, _, _ => malformed
  | fuel + 1, isFirst, record => do
      let next ← peek
      if next == some (byte '\x7d') then return record
      if !isFirst then
        if next == some (byte ',') then skip else malformed
      mark '"'
      let key ← stringTail
      match fields.find? (·.name == key) with
      | some field =>
          if field.isSet record then throw (.duplicateField field.name)
          mark ':'
          let record ← field.read record
          recordFields fields fuel false record
      | none =>
          mark ':'
          ignored
          recordFields fields fuel false record

/-- The first field that a map must have and that is not set. -/
def missingField? {σ : Type} (fields : List (Field σ)) (record : σ) : Option String :=
  (fields.find? fun field => field.presence == .required && !field.isSet record).map (·.name)

/-- The description of a record as a sequence. -/
def lengthExpectation (expected : String) (count : Nat) : String :=
  s!"{expected} with {count} element" ++ (if count = 1 then "" else "s")

/-- Read the fields of a sequence after its opening bracket; `index` of `count` are read. -/
def recordElements {σ : Type} (expected : String) (count : Nat) :
    Nat → List (Field σ) → σ → Reader σ
  | _, [], record => pure record
  | index, field :: fields, record => do
      let next ← peek
      if next == some (byte ']') then
        if field.presence == .defaulted then recordElements expected count (index + 1) fields record
        else throw (.invalidLength index (lengthExpectation expected count))
      else
        if index ≠ 0 then
          if next == some (byte ',') then do
            skip
            if (← peek) == some (byte ']') then malformed
          else malformed
        else if next.isNone then malformed
        let record ← field.read record
        recordElements expected count (index + 1) fields record

/-- Read a record from its empty form. -/
def record {σ : Type} (expected : String) (fields : List (Field σ)) (empty : σ) : Reader σ := do
  match ← peek with
  | some b =>
      if b = byte '\x7b' then do
        skip
        let fuel := (← get).length + 1
        let filled ← recordFields fields fuel true empty
        match missingField? fields filled with
        | some name => throw (.missingField name)
        | none => do
            mark '\x7d'
            return filled
      else if b = byte '[' then do
        skip
        let filled ← recordElements expected fields.length 0 fields empty
        mark ']'
        return filled
      else unexpected expected
  | none => malformed

end Reader

end Rewards.Json
