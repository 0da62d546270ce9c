import TypedSheets.Code.Literal
import TypedSheets.Code.Token
import TypedSheets.Text.Basic
import TypedSheets.Text.Escaped

/-!
# From text to tokens

Source text is cut into lexemes, and the lexemes are nested by their brackets. Comments are
skipped, but a documentation comment is an attribute.

* `Lexeme` — a token, or one side of a group
* `scan?` — the lexemes of a text
* `nest?` — groups from lexemes
* `tokenize?` — both
* `isIdentifier` — whether a text is an identifier
-/

namespace TypedSheets.Code.Lexer

/-- A token, or one side of a group. -/
inductive Lexeme where
  | token (t : Token)
  | opening (d : Delimiter)
  | closing (d : Delimiter)

/-- White space between tokens: also the two direction marks. -/
def isGap (c : Char) : Bool := Text.isBlankChar c || c.toNat == 0x200E || c.toNat == 0x200F

/-- The characters of operators. -/
def operatorMarks : List Char := "~!@#$%^&*-=+|;:,<.>/?'".toList

/-- Whether a text starts with a word. -/
def startsWith (word : String) (s : List Char) : Bool := word.toList.isPrefixOf s

/-- The rest of a line, and the text from its end on. -/
def splitLine : List Char → List Char × List Char
  | [] => ([], [])
  | '\n' :: rest => ([], '\n' :: rest)
  | '\r' :: '\n' :: rest => ([], '\r' :: '\n' :: rest)
  | c :: rest => (c :: (splitLine rest).1, (splitLine rest).2)

/-- The rest of a block comment inside `depth + 1` openings, and the text behind it. -/
def blockComment? : (depth : Nat) → List Char → Option (List Char × List Char)
  | _, [] => none
  | depth, '/' :: '*' :: rest =>
    (blockComment? (depth + 1) rest).map fun (body, r) => ('/' :: '*' :: body, r)
  | 0, '*' :: '/' :: rest => some ([], rest)
  | depth + 1, '*' :: '/' :: rest =>
    (blockComment? depth rest).map fun (body, r) => ('*' :: '/' :: body, r)
  | depth, c :: rest => (blockComment? depth rest).map fun (body, r) => (c :: body, r)

/-- How a character of a text literal is written before `next`. A null is written so that no octal
digit joins it, and a single quote needs no escape. -/
def literalChar (c : Char) (next : Option Char) : List Char :=
  if c.toNat == 0 then
    if next.any (fun d => '0' ≤ d && d ≤ '7') then ['\\', 'x', '0', '0'] else ['\\', '0']
  else Text.shown c

/-- The characters of a text literal. -/
def literalChars : List Char → List Char
  | [] => []
  | c :: rest => literalChar c rest.head? ++ literalChars rest

/-- The literal of a text. -/
def stringLiteral (s : String) : String := String.ofList ('"' :: literalChars s.toList ++ ['"'])

/-- Whether every return belongs to a line end. -/
def returnsEndLines : List Char → Bool
  | '\r' :: '\n' :: rest => returnsEndLines rest
  | '\r' :: _ => false
  | _ :: rest => returnsEndLines rest
  | [] => true

/-- The lexemes of a documentation attribute. -/
def docAttribute? (isInner : Bool) (body : List Char) : Option (List Lexeme) :=
  if returnsEndLines body then
    some ([.token (.mark '#')] ++ (if isInner then [.token (.mark '!')] else []) ++
      [.opening .bracket, .token (.name "doc"), .token (.mark '='),
        .token (.literal (stringLiteral (String.ofList body))), .closing .bracket])
  else none

/-- A comment up to the end of its line, given what follows its two slashes. -/
def lineComment? (s : List Char) : Option (List Lexeme × List Char) :=
  let (body, after) := splitLine s
  match body with
  | '!' :: doc => (docAttribute? true doc).map fun ls => (ls, after)
  | '/' :: '/' :: _ => some ([], after)
  | '/' :: doc => (docAttribute? false doc).map fun ls => (ls, after)
  | _ => some ([], after)

/-- A comment in brackets, given what follows its opening. -/
def bracketComment? (s : List Char) : Option (List Lexeme × List Char) :=
  match s, blockComment? 0 s with
  | _, none => none
  | '!' :: _, some (body, after) => (docAttribute? true (body.drop 1)).map fun ls => (ls, after)
  | '*' :: c :: _, some (body, after) =>
    if c == '*' || c == '/' then some ([], after)
    else (docAttribute? false (body.drop 1)).map fun ls => (ls, after)
  | _, some (_, after) => some ([], after)

/-- What a comment at the front amounts to: lexemes, if it documents, and the text behind it. -/
def comment? : List Char → Option (List Lexeme × List Char)
  | '/' :: '/' :: rest => lineComment? rest
  | '/' :: '*' :: rest => bracketComment? rest
  | _ => none

/-- A literal at the front and the text behind it. -/
def literal? (s : List Char) : Option (Token × List Char) :=
  (literalEnd? s).map fun r => (.literal (String.ofList (before s r)), r)

/-- An identifier at the front, raw or not. -/
def identifier? (s : List Char) : Option (Token × List Char) :=
  let plain (raw : Bool) (s : List Char) : Option (Token × List Char) :=
    if s.head?.any isIdentStart then
      let name := String.ofList (s.takeWhile isIdentContinue)
      if raw && neverNames.contains name then none
      else some (.ident name raw, s.dropWhile isIdentContinue)
    else none
  match s with
  | 'r' :: '#' :: rest => plain true rest
  | s => plain false s

/-- The starts of literals; an identifier in front may not run into them. -/
def literalStarts : List String :=
  ["r\"", "r#\"", "r##", "b\"", "b'", "br\"", "br#", "c\"", "cr\"", "cr#"]

/-- An identifier where no literal starts. -/
def word? (s : List Char) : Option (Token × List Char) :=
  if literalStarts.any (startsWith · s) then none else identifier? s

/-- A lifetime behind its quote. Where the name starts a literal, the quote stands alone. -/
def lifetime? (s : List Char) : Option (Token × List Char) :=
  match identifier? s with
  | some (.ident name raw, rest) =>
    match rest with
    | '\'' :: _ => none
    | '#' :: _ =>
      if startsWith "r#" s then some (.lifetime (Token.identText name raw), rest) else none
    | _ =>
      if (literal? s).isSome || (word? s).isNone then some (.punct '\'' true, s)
      else some (.lifetime (Token.identText name raw), rest)
  | _ => none

/-- Whether a text starts with the character of an operator, and not with a comment. -/
def startsMark (s : List Char) : Bool :=
  s.head?.any operatorMarks.contains && !(startsWith "//" s || startsWith "/*" s)

/-- A punctuation character at the front; it is joint if another one follows at once. -/
def punct? (s : List Char) : Option (Token × List Char) :=
  match s with
  | '\'' :: rest => lifetime? rest
  | c :: rest => if startsMark s then some (.punct c (startsMark rest), rest) else none
  | [] => none

/-- The side of a group that a character is. -/
def side? (c : Char) : Option Lexeme :=
  if c == '(' then some (.opening .paren)
  else if c == ')' then some (.closing .paren)
  else if c == '[' then some (.opening .bracket)
  else if c == ']' then some (.closing .bracket)
  else if c.toNat == 0x7B then some (.opening .brace)
  else if c.toNat == 0x7D then some (.closing .brace)
  else none

/-- The text that stands for something unreadable; it is read as one literal. -/
def unreadable : String := "(/*ERROR*/)"

/-- The token at the front and the text behind it. -/
def token? (s : List Char) : Option (Token × List Char) :=
  match literal? s with
  | some r => some r
  | none =>
    match punct? s with
    | some r => some r
    | none => word? s

/-- The lexemes at the front and the text behind them; white space and comments give none. -/
def lexeme? (s : List Char) : Option (List Lexeme × List Char) :=
  match s with
  | [] => none
  | c :: rest =>
    if isGap c then some ([], rest)
    else if startsWith unreadable s then
      some ([.token (.literal unreadable)], s.drop unreadable.length)
    else
      match side? c with
      | some l => some ([l], rest)
      | none =>
        match comment? s with
        | some r => some r
        | none => (token? s).map fun (t, r) => ([.token t], r)

/-- The lexemes of a text, in at most `fuel` steps. -/
def scanWithin? : (fuel : Nat) → List Char → Option (List Lexeme)
  | _, [] => some []
  | 0, _ => none
  | fuel + 1, s =>
    match lexeme? s with
    | none => none
    | some (ls, rest) => (scanWithin? fuel rest).map (ls ++ ·)

/-- The lexemes of a text. Each step takes at least one character, so that its length is enough. -/
def scan? (s : List Char) : Option (List Lexeme) := scanWithin? s.length s

/-- Nests lexemes, given the tokens of the open group, the last one first, and the groups around
it. -/
def nestFrom : List Token → List (Delimiter × List Token) → List Lexeme → Option (List Token)
  | done, [], [] => some done.reverse
  | _, _ :: _, [] => none
  | done, outer, .token t :: rest => nestFrom (t :: done) outer rest
  | done, outer, .opening d :: rest => nestFrom [] ((d, done) :: outer) rest
  | _, [], .closing _ :: _ => none
  | done, (d, around) :: outer, .closing d' :: rest =>
    if d = d' then nestFrom (.group d done.reverse :: around) outer rest else none

/-- Nests lexemes by their brackets. -/
def nest? (ls : List Lexeme) : Option (List Token) := nestFrom [] [] ls

end TypedSheets.Code.Lexer

namespace TypedSheets.Code

/-- The tokens of a text. -/
def tokenize? (text : String) : Option Tokens :=
  (Lexer.scan? (Text.dropMark text.toList)).bind Lexer.nest?

/-- The value of a text literal. -/
def stringValue? : Token → Option String
  | .literal text => (Lexer.textValue? text.toList).map String.ofList
  | _ => none

/-- Whether a text is an identifier, keywords included. -/
def isIdentifier (s : String) : Bool :=
  match s.toList with
  | [] => false
  | c :: rest => Lexer.isIdentStart c && rest.all Lexer.isIdentContinue

end TypedSheets.Code
