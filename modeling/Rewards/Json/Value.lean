import Rewards.Json.Reader

/-!
# JSON values

Documents of any shape, how they are written, and how they are read. Writing leaves no spaces.
-/

namespace Rewards.Json

/-- A JSON value. The fields of an object keep their order. -/
inductive Value where
  | null
  | boolean (b : Bool)
  | number (n : Number)
  | text (s : String)
  | array (items : List Value)
  | object (fields : List (String × Value))

/-- A character as it stands in a string. -/
def escapedChar (c : Char) : List Char :=
  if c = '"' then ['\\', '"']
  else if c = '\\' then ['\\', '\\']
  else if c.toNat = 8 then ['\\', 'b']
  else if c.toNat = 12 then ['\\', 'f']
  else if c = '\n' then ['\\', 'n']
  else if c = '\r' then ['\\', 'r']
  else if c = '\t' then ['\\', 't']
  else if c.toNat < 16 then ['\\', 'u', '0', '0', '0'] ++ Nat.toDigits 16 c.toNat
  else if c.toNat < 32 then ['\\', 'u', '0', '0'] ++ Nat.toDigits 16 c.toNat
  else [c]

/-- The characters of a string value. -/
def textChars (s : String) : List Char :=
  '"' :: s.toList.flatMap escapedChar ++ ['"']

namespace Value

mutual

/-- The characters of a value. -/
def chars : Value → List Char
  | .null => "null".toList
  | .boolean true => "true".toList
  | .boolean false => "false".toList
  | .number n => n.chars
  | .text s => textChars s
  | .array items => '[' :: itemChars true items ++ [']']
  | .object fields => '\x7b' :: fieldChars true fields ++ ['\x7d']

/-- The characters of the items of an array, with commas between them. -/
def itemChars (isFirst : Bool) : List Value → List Char
  | [] => []
  | item :: items => (if isFirst then [] else [',']) ++ item.chars ++ itemChars false items

/-- The characters of the fields of an object, with commas between them. -/
def fieldChars (isFirst : Bool) : List (String × Value) → List Char
  | [] => []
  | (name, value) :: fields =>
      (if isFirst then [] else [',']) ++ textChars name ++ ':' :: value.chars ++
        fieldChars false fields

end

/-- The text of a value. -/
def toText (v : Value) : String :=
  String.ofList v.chars

/-- An object with its fields sorted by name. -/
def sorted (fields : List (String × Value)) : Value :=
  .object (fields.mergeSort fun a b => a.1 ≤ b.1)

/-- A natural number as a value. -/
def ofNat (n : Nat) : Value := .number (.natural n)

end Value

namespace Reader

/-- The deepest nesting that is read. -/
def maxDepth : Nat := 128

mutual

/-- Read a value of any shape that nests less than `depth` deep. -/
def valueFrom : Nat → Nat → Reader Value
  | 0, _ => malformed
  | fuel + 1, depth => do
      match ← peek with
      | none => malformed
      | some b =>
          if b = byte 'n' then do literal "null".toList; pure .null
          else if b = byte 't' then do literal "true".toList; pure (.boolean true)
          else if b = byte 'f' then do literal "false".toList; pure (.boolean false)
          else if b = byte '"' then do skip; return .text (← stringTail)
          else if b = byte '[' then do
            if depth ≤ 1 then malformed
            skip
            return .array (← itemsFrom fuel (depth - 1) true)
          else if b = byte '\x7b' then do
            if depth ≤ 1 then malformed
            skip
            return .object (← fieldsFrom fuel (depth - 1) true)
          else return .number (← number)

/-- Read the items of an array up to its closing bracket. -/
def itemsFrom : Nat → Nat → Bool → Reader (List Value)
  | 0, _, _ => malformed
  | fuel + 1, depth, isFirst => do
      let next ← peek
      if next == some (byte ']') then do skip; return []
      if !isFirst then
        if next == some (byte ',') then skip else malformed
      let item ← valueFrom fuel depth
      return item :: (← itemsFrom fuel depth false)

/-- Read the fields of an object up to its closing brace. -/
def fieldsFrom : Nat → Nat → Bool → Reader (List (String × Value))
  | 0, _, _ => malformed
  | fuel + 1, depth, isFirst => do
      let next ← peek
      if next == some (byte '\x7d') then do skip; return []
      if !isFirst then
        if next == some (byte ',') then skip else malformed
      mark '"'
      let name ← stringTail
      mark ':'
      let value ← valueFrom fuel depth
      return (name, value) :: (← fieldsFrom fuel depth false)

end

/-- Read a value of any shape. -/
def value : Reader Value := do
  valueFrom ((← get).length + 1) maxDepth

end Reader

/-- Read a document of any shape. -/
def Value.read (text : String) : Except Error Value :=
  Reader.run Reader.value (Text.utf8 text)

/-- The value of a field. -/
def Value.field? (name : String) : Value → Option Value
  | .object fields => (fields.find? (·.1 == name)).map (·.2)
  | _ => none

end Rewards.Json
