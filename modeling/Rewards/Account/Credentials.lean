import Rewards.Json.Record
import Rewards.Json.Value

/-!
# Logins and passwords

The policy for logins and passwords: their lengths, and letters and digits of the Latin alphabet
only. Every broken rule is reported.
-/

namespace Rewards

/-- A login and a password. -/
structure Credentials where
  login : String
  password : String
deriving DecidableEq

/-- A field that breaks a rule. -/
structure InvalidField where
  field : String
  message : String
deriving DecidableEq

/-- A broken rule as a JSON value. -/
def InvalidField.toJson (f : InvalidField) : Json.Value :=
  .object [("field", .text f.field), ("message", .text f.message)]

namespace Credentials

/-- The shortest and the longest login. -/
def loginLength : Nat × Nat := (3, 30)

/-- The shortest and the longest password. -/
def passwordLength : Nat × Nat := (6, 50)

/-- The rules that a field breaks. -/
def brokenRules (field value : String) (bounds : Nat × Nat) : List InvalidField :=
  let length := value.toList.length
  (if bounds.1 ≤ length ∧ length ≤ bounds.2 then []
    else [⟨field, s!"{field} must be between {bounds.1} and {bounds.2} characters long"⟩]) ++
  (if value.toList.all Char.isAlphanum then []
    else [⟨field, s!"{field} must contain only latin letters and digits"⟩])

/-- All rules that a login and a password break. -/
def faults (c : Credentials) : List InvalidField :=
  brokenRules "login" c.login loginLength ++ brokenRules "password" c.password passwordLength

/-- A login and a password that are being read. -/
structure Partial where
  login : Option String
  password : Option String

/-- The fields in their order. -/
def fields : List (Json.Field Partial) :=
  [ ⟨"login", .required, (·.login.isSome),
      fun p => do return { p with login := some (← Json.Reader.string "a string") }⟩,
    ⟨"password", .required, (·.password.isSome),
      fun p => do return { p with password := some (← Json.Reader.string "a string") }⟩ ]

/-- Read a login and a password from a JSON document. -/
def reader : Json.Reader Credentials := do
  match ← Json.Reader.record "struct Credentials" fields ⟨none, none⟩ with
  | ⟨some login, some password⟩ => pure ⟨login, password⟩
  | _ => Json.Reader.malformed

/-- A login and a password for a log, which keeps the password to itself. -/
def describe (c : Credentials) : String :=
  "Credentials \x7b login: " ++ Text.quoted c.login ++ ", password: \"<redacted>\" \x7d"

end Credentials

end Rewards
