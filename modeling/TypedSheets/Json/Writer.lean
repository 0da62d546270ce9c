import TypedSheets.Json.Basic
import TypedSheets.Number.Decimal

/-!
# Writing JSON text

Compact text: no white space, strings with the escapes that JSON asks for.

* `Json.write` — the text of a value
-/

namespace TypedSheets.Json

open Number

/-- The characters that stand for one character of a string. -/
def escaped (c : Char) : List Char :=
  if c == '"' then ['\\', '"']
  else if c == '\\' then ['\\', '\\']
  else if c == '\n' then ['\\', 'n']
  else if c == '\r' then ['\\', 'r']
  else if c == '\t' then ['\\', 't']
  else if c.toNat < 0x20 || c.toNat == 0x7F then '\\' :: 'u' :: hexFixed 4 c.toNat
  else [c]

/-- A string in quotes. -/
def quoted (s : String) : String :=
  "\"" ++ String.ofList (s.toList.flatMap escaped) ++ "\""

/-- The text of a number. A double that is an integer shows a decimal place, and one that is no
number is null. -/
def numberText : JsonNumber → String
  | .int i => intText i
  | .float d =>
    match d.decode with
    | .finite _ _ _ => if d.wholePart?.isSome then d.text ++ ".0" else d.text
    | _ => "null"

mutual

/-- The text of a value. -/
def write : Json → String
  | .null => "null"
  | .bool b => if b then "true" else "false"
  | .number n => numberText n
  | .string s => quoted s
  | .array items => "[" ++ ",".intercalate (writeItems items) ++ "]"
  | .object members => "\x7b" ++ ",".intercalate (writeMembers members) ++ "\x7d"

/-- The texts of the items of an array. -/
def writeItems : List Json → List String
  | [] => []
  | item :: rest => write item :: writeItems rest

/-- The texts of the members of an object. -/
def writeMembers : List (String × Json) → List String
  | [] => []
  | (name, v) :: rest => (quoted name ++ ":" ++ write v) :: writeMembers rest

end

end TypedSheets.Json
