import TypedSheets.Number.Integer
import TypedSheets.Settings.Setting
import TypedSheets.Settings.Toml.Moment
import TypedSheets.Text.Basic

/-!
# TOML: strings and words

* `Toml.string?` — a string of one of the four forms
* `Toml.word?` — a truth value, a number, or a date or time, which is kept as text
-/

namespace TypedSheets.Toml

open Number

/-- Blanks within a line. -/
def isBlank (c : Char) : Bool := c == ' ' || c == '\t'

/-- Whether a character may stand for itself within a line of text. -/
def isPlain (c : Char) : Bool := c == '\t' || (0x20 ≤ c.toNat && c.toNat != 0x7F)

/-- The text behind a line end, if the text starts with one. -/
def lineEnd? : List Char → Option (List Char)
  | '\n' :: rest => some rest
  | '\r' :: '\n' :: rest => some rest
  | _ => none

/-- The text without blanks and line ends in front. -/
def skipSpace : List Char → List Char
  | '\r' :: '\n' :: rest => skipSpace rest
  | c :: rest => if isBlank c || c == '\n' then skipSpace rest else c :: rest
  | [] => []

/-- The character of an escape by its code point in that many digits. -/
def codePoint? (width : Nat) (s : List Char) : Option (Char × List Char) :=
  if s.length < width then none
  else
    match parseHex? (s.take width) with
    | some n => if n.isValidChar then some (Char.ofNat n, s.drop width) else none
    | none => none

/-- The character of the escape behind a backslash. -/
def escape? : List Char → Option (Char × List Char)
  | 'b' :: rest => some (Char.ofNat 8, rest)
  | 't' :: rest => some ('\t', rest)
  | 'n' :: rest => some ('\n', rest)
  | 'f' :: rest => some (Char.ofNat 12, rest)
  | 'r' :: rest => some ('\r', rest)
  | 'e' :: rest => some (Char.ofNat 0x1B, rest)
  | '"' :: rest => some ('"', rest)
  | '\\' :: rest => some ('\\', rest)
  | 'x' :: rest => codePoint? 2 rest
  | 'u' :: rest => codePoint? 4 rest
  | 'U' :: rest => codePoint? 8 rest
  | _ => none

/-- A character in front of what was read before. -/
def prepend (c : Char) (r : List Char × List Char) : List Char × List Char := (c :: r.1, r.2)

/-- The rest of a basic string, up to and with its closing quote. -/
def basicRest? : (fuel : Nat) → List Char → Option (List Char × List Char)
  | 0, _ => none
  | _ + 1, [] => none
  | _ + 1, '"' :: rest => some ([], rest)
  | fuel + 1, '\\' :: rest =>
    match escape? rest with
    | some (c, rest) => (basicRest? fuel rest).map (prepend c)
    | none => none
  | fuel + 1, c :: rest => if isPlain c then (basicRest? fuel rest).map (prepend c) else none

/-- The rest of a basic string over several lines. A backslash at the end of a line takes the white
space behind it away; other line ends stay as they are. -/
def basicLinesRest? : (fuel : Nat) → List Char → Option (List Char × List Char)
  | 0, _ => none
  | _ + 1, [] => none
  | _ + 1, '"' :: '"' :: '"' :: '"' :: '"' :: rest => some (['"', '"'], rest)
  | _ + 1, '"' :: '"' :: '"' :: '"' :: rest => some (['"'], rest)
  | _ + 1, '"' :: '"' :: '"' :: rest => some ([], rest)
  | fuel + 1, '\\' :: rest =>
    if (lineEnd? (rest.dropWhile isBlank)).isSome then
      basicLinesRest? fuel (skipSpace rest)
    else
      match escape? rest with
      | some (c, rest) => (basicLinesRest? fuel rest).map (prepend c)
      | none => none
  | fuel + 1, '\r' :: '\n' :: rest =>
    (basicLinesRest? fuel rest).map fun r => prepend '\r' (prepend '\n' r)
  | fuel + 1, c :: rest =>
    if isPlain c || c == '\n' then (basicLinesRest? fuel rest).map (prepend c) else none

/-- The rest of a literal string, in which nothing is escaped. -/
def literalRest? : List Char → Option (List Char × List Char)
  | [] => none
  | '\'' :: rest => some ([], rest)
  | c :: rest => if isPlain c then (literalRest? rest).map (prepend c) else none

/-- The rest of a literal string over several lines. -/
def literalLinesRest? : List Char → Option (List Char × List Char)
  | [] => none
  | '\'' :: '\'' :: '\'' :: '\'' :: '\'' :: rest => some (['\'', '\''], rest)
  | '\'' :: '\'' :: '\'' :: '\'' :: rest => some (['\''], rest)
  | '\'' :: '\'' :: '\'' :: rest => some ([], rest)
  | '\r' :: '\n' :: rest =>
    (literalLinesRest? rest).map fun r => prepend '\r' (prepend '\n' r)
  | c :: rest =>
    if isPlain c || c == '\n' then (literalLinesRest? rest).map (prepend c) else none

/-- The text without a line end in front. -/
def dropLineEnd (s : List Char) : List Char := (lineEnd? s).getD s

/-- A string within a line, which may also be a key. -/
def lineString? : List Char → Option (List Char × List Char)
  | '"' :: rest => basicRest? (rest.length + 1) rest
  | '\'' :: rest => literalRest? rest
  | _ => none

/-- A string of any form. -/
def string? : List Char → Option (List Char × List Char)
  | '"' :: '"' :: '"' :: rest => basicLinesRest? (rest.length + 1) (dropLineEnd rest)
  | '\'' :: '\'' :: '\'' :: rest => literalLinesRest? (dropLineEnd rest)
  | s => lineString? s

/-- The digits of a number, whose groups stand between single underscores. -/
def grouped? (isDigit : Char → Bool) (s : List Char) : Option (List Char) :=
  let groups := Text.splitBy (· == '_') s
  if groups.all fun g => !g.isEmpty && g.all isDigit then some groups.flatten else none

/-- The value of the digits of a lower case letter or numeral in a base. -/
def valueIn (base : Nat) (digits : List Char) : Nat :=
  digits.foldl (fun n c => n * base + (hexValue? c).getD 0) 0

/-- Whether a character is a digit of a base. -/
def isDigitOf (base : Nat) (c : Char) : Bool := (hexValue? c).any fun v => v < base

/-- The value of an integer with the mark of a base. -/
def marked? : List Char → Option Nat
  | '0' :: 'x' :: rest => (grouped? (isDigitOf 16) rest).map (valueIn 16)
  | '0' :: 'o' :: rest => (grouped? (isDigitOf 8) rest).map (valueIn 8)
  | '0' :: 'b' :: rest => (grouped? (isDigitOf 2) rest).map (valueIn 2)
  | _ => none

/-- The digits of a decimal number; none but zero starts with zero. -/
def decimal? (s : List Char) : Option (List Char) :=
  match grouped? Char.isDigit s with
  | some ('0' :: _ :: _) => none
  | digits => digits

/-- The sign of a number and what is behind it. -/
def signed : List Char → Bool × List Char
  | '-' :: rest => (true, rest)
  | '+' :: rest => (false, rest)
  | rest => (false, rest)

/-- An integer of 64 bits. -/
def integer? (s : List Char) : Option Int :=
  let (negative, digits) := signed s
  let magnitude :=
    match marked? s with
    | some n => some n
    | none => (decimal? digits).map digitsValue
  magnitude.bind fun n =>
    let i : Int := if negative then -n else n
    if IntKind.i64.Holds i then some i else none

/-- The digits of an exponent, with its sign. -/
def exponent? (s : List Char) : Option (List Char) :=
  let (negative, digits) := signed s
  (grouped? Char.isDigit digits).map fun ds => if negative then '-' :: ds else ds

/-- The plain spelling of an unsigned number with a fraction or an exponent. -/
def spelled? (s : List Char) : Option (List Char) :=
  let isMark (c : Char) : Bool := c == 'e' || c == 'E'
  let mantissa := s.takeWhile fun c => !isMark c
  let whole := mantissa.takeWhile (· != '.')
  let fraction :=
    match mantissa.dropWhile (· != '.') with
    | '.' :: rest => (grouped? Char.isDigit rest).map ('.' :: ·)
    | _ => some []
  let exponent :=
    match s.dropWhile fun c => !isMark c with
    | _ :: rest => (exponent? rest).map ('e' :: ·)
    | [] => some []
  match decimal? whole, fraction, exponent with
  | some whole, some fraction, some exponent =>
    if fraction.isEmpty && exponent.isEmpty then none else some (whole ++ fraction ++ exponent)
  | _, _, _ => none

/-- A double. Digits never stand for an infinite one. -/
def float? (s : List Char) : Option Double :=
  let (negative, body) := signed s
  if body == "inf".toList then some (.infinity .double negative)
  else if body == "nan".toList then some (.nan .double negative)
  else
    match (spelled? body).bind (Binary.parseMagnitude? .double negative) with
    | some d => if d.isInfinite then none else some d
    | none => none

/-- Whether a character may be part of a word. -/
def isWordChar (c : Char) : Bool :=
  c.isAlphanum || c == '+' || c == '-' || c == '_' || c == '.' || c == ':'

/-- A word and the text behind it. A time may follow its date behind a space. -/
def wordChars (s : List Char) : List Char × List Char :=
  let word := s.takeWhile isWordChar
  match s.dropWhile isWordChar with
  | ' ' :: c :: rest =>
    if c.isDigit && (match date? word with | some (_, []) => true | _ => false) then
      (word ++ ' ' :: (c :: rest).takeWhile isWordChar, (c :: rest).dropWhile isWordChar)
    else (word, ' ' :: c :: rest)
  | rest => (word, rest)

/-- What a word says. -/
def ofWord? (word : List Char) : Option Setting :=
  if word == "true".toList then some (.bool true)
  else if word == "false".toList then some (.bool false)
  else
    match integer? word, float? word with
    | some i, _ => some (.int i)
    | none, some d => some (.float d)
    | none, none => (Moment.ofChars? word).map fun m => .text m.text

/-- A word and the text behind it. -/
def word? (s : List Char) : Option (Setting × List Char) :=
  let (word, rest) := wordChars s
  (ofWord? word).map fun v => (v, rest)

end TypedSheets.Toml
