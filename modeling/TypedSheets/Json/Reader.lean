import TypedSheets.Json.Scale
import TypedSheets.Text.Basic

/-!
# Reading JSON text

The strict grammar: no trailing text, no leading zeros, no raw control characters in strings, no
escape of a lone surrogate, and a bound on nesting. White space is space, tab and the two line
ends.

* `Json.parse?` — a whole text
* `Json.depthLimit` — how deep arrays and objects may nest
-/

namespace TypedSheets.Json

open Number

/-- The white space of JSON. -/
def isSpace (c : Char) : Bool := c == ' ' || c == '\t' || c == '\n' || c == '\r'

/-- The text without white space in front. -/
def skipSpace (s : List Char) : List Char := s.dropWhile isSpace

/-- The code unit of four hexadecimal digits. -/
def codeUnit? : List Char → Option (Nat × List Char)
  | a :: b :: c :: d :: rest => (parseHex? [a, b, c, d]).map fun n => (n, rest)
  | _ => none

/-- The character of an escaped code unit, which may be the first half of a pair. -/
def escapedUnit? (s : List Char) : Option (Char × List Char) :=
  match codeUnit? s with
  | none => none
  | some (high, rest) =>
    if 0xDC00 ≤ high && high ≤ 0xDFFF then none
    else if 0xD800 ≤ high && high ≤ 0xDBFF then
      match rest with
      | '\\' :: 'u' :: rest' =>
        match codeUnit? rest' with
        | some (low, rest'') =>
          if 0xDC00 ≤ low && low ≤ 0xDFFF then
            some (Char.ofNat (0x10000 + (high - 0xD800) * 0x400 + (low - 0xDC00)), rest'')
          else none
        | none => none
      | _ => none
    else some (Char.ofNat high, rest)

/-- The character of an escape of one letter. -/
def escapedLetter? (c : Char) : Option Char :=
  if c == '"' || c == '\\' || c == '/' then some c
  else if c == 'b' then some (Char.ofNat 8)
  else if c == 'f' then some (Char.ofNat 12)
  else if c == 'n' then some '\n'
  else if c == 'r' then some '\r'
  else if c == 't' then some '\t'
  else none

/-- The rest of a string, up to and with its closing quote, in at most `fuel` characters. -/
def stringRest? : (fuel : Nat) → List Char → Option (List Char × List Char)
  | 0, _ => none
  | _ + 1, [] => none
  | _ + 1, '"' :: rest => some ([], rest)
  | fuel + 1, '\\' :: 'u' :: rest =>
    match escapedUnit? rest with
    | some (c, rest') => (stringRest? fuel rest').map fun (cs, r) => (c :: cs, r)
    | none => none
  | fuel + 1, '\\' :: e :: rest =>
    match escapedLetter? e with
    | some c => (stringRest? fuel rest).map fun (cs, r) => (c :: cs, r)
    | none => none
  | fuel + 1, c :: rest =>
    if c == '\\' || c.toNat < 0x20 then none
    else (stringRest? fuel rest).map fun (cs, r) => (c :: cs, r)

/-- The fraction of a number: nothing, or a point and at least one digit. -/
def fraction? : List Char → Option (Option (List Char) × List Char)
  | '.' :: rest =>
    let digits := rest.takeWhile Char.isDigit
    if digits.isEmpty then none else some (some digits, rest.dropWhile Char.isDigit)
  | s => some (none, s)

/-- The digits of an exponent, at least one. -/
def exponentDigits? (down : Bool) (s : List Char) :
    Option (Option (Bool × List Char) × List Char) :=
  let digits := s.takeWhile Char.isDigit
  if digits.isEmpty then none else some (some (down, digits), s.dropWhile Char.isDigit)

/-- The exponent of a number: nothing, or a letter, an optional sign and digits. -/
def exponent? : List Char → Option (Option (Bool × List Char) × List Char)
  | c :: rest =>
    if c == 'e' || c == 'E' then
      match rest with
      | '-' :: r => exponentDigits? true r
      | '+' :: r => exponentDigits? false r
      | r => exponentDigits? false r
    else some (none, c :: rest)
  | [] => some (none, [])

/-- The digits before the point: a zero alone, or digits that start with none. -/
def whole? (s : List Char) : Option (List Char × List Char) :=
  let digits := s.takeWhile Char.isDigit
  match digits with
  | [] => none
  | '0' :: _ :: _ => none
  | _ => some (digits, s.dropWhile Char.isDigit)

/-- A number token and the text behind it. -/
def number? (s : List Char) : Option (JsonNumber × List Char) := do
  let (negative, s) := match s with
    | '-' :: r => (true, r)
    | r => (false, r)
  let (whole, s) ← whole? s
  let (fraction, s) ← fraction? s
  let (exponent, s) ← exponent? s
  let n ← JsonNumber.ofToken? ⟨negative, whole, fraction, exponent⟩
  return (n, s)

/-- The text behind a word, if it starts with the word. -/
def word? (word : String) (s : List Char) : Option (List Char) :=
  if word.toList.isPrefixOf s then some (s.drop word.length) else none

mutual

/-- A value and the text behind it. Each level of nesting takes one of `depth`. -/
def value? : (fuel depth : Nat) → List Char → Option (Json × List Char)
  | 0, _, _ => none
  | fuel + 1, depth, s =>
    match skipSpace s with
    | [] => none
    | '"' :: rest =>
      (stringRest? (rest.length + 1) rest).map fun (cs, r) => (.string (String.ofList cs), r)
    | '[' :: rest =>
      match depth with
      | 0 => none
      | depth + 1 =>
        match skipSpace rest with
        | ']' :: r => some (.array [], r)
        | r => (items? fuel depth r).map fun (items, r) => (.array items, r)
    | '{' :: rest =>
      match depth with
      | 0 => none
      | depth + 1 =>
        match skipSpace rest with
        | '}' :: r => some (.object [], r)
        | r => (members? fuel depth r).map fun (members, r) => (ofMembers members, r)
    | c :: rest =>
      if c == 'n' then (word? "null" (c :: rest)).map fun r => (.null, r)
      else if c == 't' then (word? "true" (c :: rest)).map fun r => (.bool true, r)
      else if c == 'f' then (word? "false" (c :: rest)).map fun r => (.bool false, r)
      else (number? (c :: rest)).map fun (n, r) => (.number n, r)

/-- The items of an array, at least one, up to and with the closing bracket. -/
def items? : (fuel depth : Nat) → List Char → Option (List Json × List Char)
  | 0, _, _ => none
  | fuel + 1, depth, s =>
    match value? fuel depth s with
    | none => none
    | some (item, rest) =>
      match skipSpace rest with
      | ',' :: r => (items? fuel depth r).map fun (items, r) => (item :: items, r)
      | ']' :: r => some ([item], r)
      | _ => none

/-- The members of an object, at least one, up to and with the closing brace. -/
def members? : (fuel depth : Nat) → List Char → Option (List (String × Json) × List Char)
  | 0, _, _ => none
  | fuel + 1, depth, s =>
    match skipSpace s with
    | '"' :: rest =>
      match stringRest? (rest.length + 1) rest with
      | none => none
      | some (name, rest) =>
        match skipSpace rest with
        | ':' :: rest =>
          match value? fuel depth rest with
          | none => none
          | some (v, rest) =>
            match skipSpace rest with
            | ',' :: r =>
              (members? fuel depth r).map fun (members, r) =>
                ((String.ofList name, v) :: members, r)
            | '}' :: r => some ([(String.ofList name, v)], r)
            | _ => none
        | _ => none
    | _ => none

end

/-- How deep arrays and objects may nest in a text. -/
def depthLimit : Nat := 127

/-- Reads a whole text with at most `depth` levels of nesting. -/
def parseWithin? (depth : Nat) (text : String) : Option Json :=
  let s := text.toList
  match value? (2 * s.length + 2) depth s with
  | some (v, rest) => if (skipSpace rest).isEmpty then some v else none
  | none => none

/-- Reads a whole text. -/
def parse? (text : String) : Option Json := parseWithin? depthLimit text

end TypedSheets.Json
