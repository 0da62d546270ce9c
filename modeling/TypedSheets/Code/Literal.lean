import TypedSheets.Number.Digits
import TypedSheets.Text.Basic
import TypedSheets.Text.Table.Identifier

/-!
# Literals

Text, characters and numbers as they stand in source code. A reader of a literal takes the
characters in front and gives the text behind them.

* `TextKind` — plain text, bytes, or text that a null ends
* `literalEnd?` — behind a literal of any kind
* `textValue?` — the value of a text literal
* `indexValue?` — the number that a literal is as an index
-/

namespace TypedSheets.Code.Lexer

open Number

/-- Whether an identifier may start so. -/
def isIdentStart (c : Char) : Bool :=
  c == '_' || c.isAlpha || (0x80 ≤ c.toNat && Text.inRanges Text.Table.identifierStart c.toNat)

/-- Whether an identifier may go on so. -/
def isIdentContinue (c : Char) : Bool :=
  isIdentStart c || c.isDigit ||
    (0x80 ≤ c.toNat && Text.inRanges Text.Table.identifierOnly c.toNat)

/-- The kinds of text literals, which differ in the characters and escapes that they take. -/
inductive TextKind where
  | plain
  | bytes
  /-- Text that a null ends and that holds none. -/
  | terminated
  deriving DecidableEq

/-- Whether a character may stand for itself in a literal. -/
def TextKind.admits (kind : TextKind) (c : Char) : Bool :=
  match kind with
  | .plain => true
  | .bytes => c.toNat < 0x80
  | .terminated => c.toNat != 0

/-- The character of two hexadecimal digits: below 128 in plain text, and no null where one ends the
text. -/
def TextKind.hexPair? (kind : TextKind) (a b : Char) : Option Char :=
  match kind, parseHex? [a, b] with
  | _, none => none
  | .plain, some n => if n < 0x80 then some (Char.ofNat n) else none
  | .bytes, some n => some (Char.ofNat n)
  | .terminated, some n => if n != 0 then some (Char.ofNat n) else none

/-- The number of the hexadecimal digits up to a closing brace, at most six and at least one; an
underscore may follow a digit. -/
def codePointDigits? : (count value : Nat) → List Char → Option (Nat × List Char)
  | _, _, [] => none
  | count, value, c :: rest =>
    match hexValue? c with
    | some d => if count < 6 then codePointDigits? (count + 1) (16 * value + d) rest else none
    | none =>
      if count == 0 then none
      else if c == '_' then codePointDigits? count value rest
      else if c.toNat == 0x7D then some (value, rest)
      else none

/-- The character of a code point in braces. -/
def bracedCodePoint? : List Char → Option (Char × List Char)
  | c :: rest =>
    if c.toNat == 0x7B then
      match codePointDigits? 0 0 rest with
      | some (n, rest) => if n.isValidChar then some (Char.ofNat n, rest) else none
      | none => none
    else none
  | [] => none

/-- The character of an escape behind its backslash. -/
def escape? (kind : TextKind) (s : List Char) : Option (Char × List Char) :=
  match s with
  | 'n' :: r => some ('\n', r)
  | 'r' :: r => some ('\r', r)
  | 't' :: r => some ('\t', r)
  | '\\' :: r => some ('\\', r)
  | '\'' :: r => some ('\'', r)
  | '"' :: r => some ('"', r)
  | '0' :: r => if kind = .terminated then none else some (Char.ofNat 0, r)
  | 'x' :: a :: b :: r => (kind.hexPair? a b).map fun c => (c, r)
  | 'u' :: r =>
    match bracedCodePoint? r with
    | some (c, r) => if kind = .bytes || !kind.admits c then none else some (c, r)
    | none => none
  | _ => none

/-- Behind an escaped line end and the blanks after it. Every return there belongs to a line end,
and something has to follow. -/
def lineEnd? : List Char → Option (List Char)
  | '\r' :: '\n' :: rest => lineEnd? rest
  | '\r' :: _ => none
  | '\n' :: rest => lineEnd? rest
  | ' ' :: rest => lineEnd? rest
  | '\t' :: rest => lineEnd? rest
  | [] => none
  | s => some s

/-- Whether a text starts with a line end. -/
def startsLineEnd : List Char → Bool
  | c :: _ => c == '\n' || c == '\r'
  | [] => false

/-- Behind the closing quote of a text with escapes. -/
def cookedEnd? (kind : TextKind) : (fuel : Nat) → List Char → Option (List Char)
  | 0, _ => none
  | _ + 1, [] => none
  | _ + 1, '"' :: rest => some rest
  | fuel + 1, '\r' :: '\n' :: rest => cookedEnd? kind fuel rest
  | _ + 1, '\r' :: _ => none
  | fuel + 1, '\\' :: rest =>
    if startsLineEnd rest then (lineEnd? rest).bind (cookedEnd? kind fuel)
    else (escape? kind rest).bind fun r => cookedEnd? kind fuel r.2
  | fuel + 1, c :: rest => if kind.admits c then cookedEnd? kind fuel rest else none

/-- Behind the closing quote of a text without escapes, which that many hashes follow. -/
def rawEnd? (kind : TextKind) (hashes : List Char) : List Char → Option (List Char)
  | [] => none
  | '\r' :: '\n' :: rest => rawEnd? kind hashes rest
  | '\r' :: _ => none
  | c :: rest =>
    if c == '"' && hashes.isPrefixOf rest then some (rest.drop hashes.length)
    else if kind.admits c then rawEnd? kind hashes rest
    else none

/-- Behind a text without escapes, from the hashes in front on; there are at most 255. -/
def rawString? (kind : TextKind) (s : List Char) : Option (List Char) :=
  let hashes := s.takeWhile (· == '#')
  match s.dropWhile (· == '#') with
  | '"' :: rest => if hashes.length ≤ 255 then rawEnd? kind hashes rest else none
  | _ => none

/-- Behind a text with escapes, from its first character on. -/
def cookedString? (kind : TextKind) (s : List Char) : Option (List Char) :=
  cookedEnd? kind (s.length + 1) s

/-- Behind a single character and its closing quote. -/
def charEnd? (kind : TextKind) (s : List Char) : Option (List Char) :=
  let behind :=
    match s with
    | '\\' :: rest => (escape? kind rest).map Prod.snd
    | c :: rest => if kind.admits c then some rest else none
    | [] => none
  match behind with
  | some ('\'' :: rest) => some rest
  | _ => none

/-- Behind the suffix of a literal. -/
def dropSuffix (s : List Char) : List Char :=
  match s with
  | c :: _ => if isIdentStart c then s.dropWhile isIdentContinue else s
  | [] => []

/-- Behind the digits of a number with a base, which may be divided by underscores. -/
def basedDigits? (base : Nat) (s : List Char) : Option (List Char) :=
  let isDigit (c : Char) : Bool :=
    c == '_' || (match hexValue? c with | some n => n < base | none => false)
  let digits := s.takeWhile isDigit
  match s.dropWhile isDigit with
  | c :: rest =>
    if c.isDigit || digits.all (· == '_') then none else some (c :: rest)
  | [] => if digits.all (· == '_') then none else some []

/-- Behind the digits of an integer. -/
def integerDigits? (s : List Char) : Option (List Char) :=
  match s with
  | '0' :: 'x' :: rest => basedDigits? 16 rest
  | '0' :: 'o' :: rest => basedDigits? 8 rest
  | '0' :: 'b' :: rest => basedDigits? 2 rest
  | '_' :: _ => none
  | s => basedDigits? 10 s

/-- A digit of a number or an underscore between digits. -/
def isDigitOrGap (c : Char) : Bool := c.isDigit || c == '_'

/-- Behind an exponent, if it has digits. Underscores may stand before and behind its sign. -/
def exponentDigits? (s : List Char) : Option (List Char) :=
  let unsigned :=
    match s.dropWhile (· == '_') with
    | '+' :: r => r
    | '-' :: r => r
    | r => r
  if (unsigned.takeWhile isDigitOrGap).any Char.isDigit then some (unsigned.dropWhile isDigitOrGap)
  else none

/-- Behind the digits of a number with a point or an exponent. -/
def floatDigits? (s : List Char) : Option (List Char) :=
  if !(s.head?.any Char.isDigit) then none
  else
    match s.dropWhile isDigitOrGap with
    | '.' :: rest =>
      if rest.head?.any fun c => c == '.' || isIdentStart c then none
      else
        match rest.dropWhile isDigitOrGap with
        | e :: r =>
          if e == 'e' || e == 'E' then some ((exponentDigits? r).getD (e :: r)) else some (e :: r)
        | [] => some []
    | e :: r => if e == 'e' || e == 'E' then exponentDigits? r else none
    | [] => none

/-- Behind a number and its suffix. -/
def number? (s : List Char) : Option (List Char) :=
  let unbroken (r : List Char) : Option (List Char) :=
    let r := dropSuffix r
    if r.head?.any isIdentContinue then none else some r
  match (floatDigits? s).bind unbroken with
  | some r => some r
  | none => (integerDigits? s).bind unbroken

/-- Behind a literal of text or of one character, without its suffix. -/
def quotedEnd? (s : List Char) : Option (List Char) :=
  match s with
  | '"' :: rest => cookedString? .plain rest
  | 'r' :: rest => rawString? .plain rest
  | 'b' :: '"' :: rest => cookedString? .bytes rest
  | 'b' :: 'r' :: rest => rawString? .bytes rest
  | 'b' :: '\'' :: rest => charEnd? .bytes rest
  | 'c' :: '"' :: rest => cookedString? .terminated rest
  | 'c' :: 'r' :: rest => rawString? .terminated rest
  | '\'' :: rest => charEnd? .plain rest
  | _ => none

/-- Behind a literal. -/
def literalEnd? (s : List Char) : Option (List Char) :=
  match quotedEnd? s with
  | some r => some (dropSuffix r)
  | none => number? s

/-- The value of a text with escapes up to its closing quote. An escaped line end stands for
nothing, and neither do the blanks behind it; a line end is a single character. -/
def cookedValue : (fuel : Nat) → List Char → List Char
  | 0, _ => []
  | _ + 1, [] => []
  | _ + 1, '"' :: _ => []
  | fuel + 1, '\r' :: '\n' :: rest => '\n' :: cookedValue fuel rest
  | fuel + 1, '\\' :: rest =>
    if startsLineEnd rest then cookedValue fuel (rest.dropWhile Text.isBlankChar)
    else
      match escape? .plain rest with
      | some (c, r) => c :: cookedValue fuel r
      | none => []
  | fuel + 1, c :: rest => c :: cookedValue fuel rest

/-- The part of a text before its tail. -/
def before (s tail : List Char) : List Char := s.take (s.length - tail.length)

/-- The value of a literal of plain text. -/
def textValue? (s : List Char) : Option (List Char) :=
  match s with
  | '"' :: rest => (cookedString? .plain rest).map fun _ => cookedValue (rest.length + 1) rest
  | 'r' :: rest =>
    let hashes := (rest.takeWhile (· == '#')).length
    (rawString? .plain rest).map fun tail =>
      ((before rest tail).drop (hashes + 1)).take ((before rest tail).length - 2 * hashes - 2)
  | _ => none

/-- The number of digits in a base, which underscores may divide. -/
def basedValue? (base : Nat) (s : List Char) : Option Nat :=
  let digits := s.filter (· != '_')
  if digits.isEmpty then none
  else
    digits.foldl (fun n c => n.bind fun n =>
      (hexValue? c).bind fun d => if d < base then some (base * n + d) else none) (some 0)

/-- The number that an integer literal without a suffix is, if an index can be so large. -/
def indexValue? (s : List Char) : Option Nat :=
  let value :=
    match s with
    | '0' :: 'x' :: rest => basedValue? 16 rest
    | '0' :: 'o' :: rest => basedValue? 8 rest
    | '0' :: 'b' :: rest => basedValue? 2 rest
    | s => basedValue? 10 s
  value.bind fun n => if n < 0x100000000 then some n else none

end TypedSheets.Code.Lexer
