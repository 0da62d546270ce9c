import TypedSheets.Text.Basic

/-!
# Tokens of source code

* `Token`, `Tokens` — identifiers, lifetimes, punctuation, literals and groups
* `Token.textOf` — the text of tokens, one space between any two that do not belong together
* `Token.compact` — the same without any white space
* `operator` — the tokens of an operator of several characters
-/

namespace TypedSheets.Code

/-- The brackets of a group. -/
inductive Delimiter where
  | paren
  | bracket
  | brace
  deriving DecidableEq

/-- A token of source code. -/
inductive Token where
  /-- A name; a raw one is marked so that it is no keyword. -/
  | ident (name : String) (raw : Bool)
  | lifetime (name : String)
  /-- A punctuation character; a joint one belongs to the same operator as the next. -/
  | punct (c : Char) (joint : Bool)
  | literal (text : String)
  | group (delimiter : Delimiter) (tokens : List Token)

/-- A sequence of tokens. -/
abbrev Tokens := List Token

namespace Token

/-- A name that is not raw. -/
def name (n : String) : Token := .ident n false

/-- A punctuation character that stands alone. -/
def mark (c : Char) : Token := .punct c false

/-- The text of an identifier. -/
def identText (n : String) (raw : Bool) : String := if raw then "r#" ++ n else n

/-- The space before a token: none at the start and after a joint character. -/
def gap (first joint : Bool) : String := if first || joint then "" else " "

mutual

/-- The text of a token. -/
def text : Token → String
  | .ident n raw => identText n raw
  | .lifetime n => "'" ++ n
  | .punct c _ => String.singleton c
  | .literal s => s
  | .group .paren ts => "(" ++ textFrom true false ts ++ ")"
  | .group .bracket ts => "[" ++ textFrom true false ts ++ "]"
  | .group .brace [] => "\x7b \x7d"
  | .group .brace (t :: ts) => "\x7b " ++ textFrom true false (t :: ts) ++ " \x7d"

/-- The text of tokens that follow others. -/
def textFrom (first joint : Bool) : List Token → String
  | [] => ""
  | t :: rest =>
    gap first joint ++ t.text ++
      textFrom false (match t with | .punct _ j => j | _ => false) rest

end

/-- The text of tokens, joined by one space except within an operator. -/
def textOf (ts : List Token) : String := textFrom true false ts

/-- A text without its white space. -/
def dropBlanks (s : String) : List Char := s.toList.filter fun c => !Text.isBlankChar c

mutual

/-- The characters of a token without white space. -/
def compactChars : Token → List Char
  | .ident n raw => (identText n raw).toList
  | .lifetime n => '\'' :: n.toList
  | .punct c _ => [c]
  | .literal s => dropBlanks s
  | .group .paren ts => '(' :: compactEach ts ++ [')']
  | .group .bracket ts => '[' :: compactEach ts ++ [']']
  | .group .brace ts => Char.ofNat 0x7B :: compactEach ts ++ [Char.ofNat 0x7D]

/-- The characters of tokens without white space. -/
def compactEach : List Token → List Char
  | [] => []
  | t :: rest => t.compactChars ++ compactEach rest

end

/-- The text of tokens without any white space. -/
def compact (ts : List Token) : String := String.ofList (compactEach ts)

end Token

/-- The tokens of an operator: every character but the last is joint. -/
def operatorChars : List Char → List Token
  | [] => []
  | [c] => [.punct c false]
  | c :: rest => .punct c true :: operatorChars rest

/-- The tokens of an operator. -/
def operator (op : String) : List Token := operatorChars op.toList

/-- The words that are no names unless they are raw. -/
def keywords : List String :=
  ["_", "abstract", "as", "async", "await", "become", "box", "break", "const", "continue",
    "crate", "do", "dyn", "else", "enum", "extern", "false", "final", "fn", "for", "if", "impl",
    "in", "let", "loop", "macro", "match", "mod", "move", "mut", "override", "priv", "pub", "ref",
    "return", "Self", "self", "static", "struct", "super", "trait", "true", "try", "type",
    "typeof", "unsafe", "unsized", "use", "virtual", "where", "while", "yield"]

/-- Whether a word is no name unless it is raw. -/
def isKeyword (s : String) : Bool := keywords.contains s

/-- The words that cannot be made names by being raw. -/
def neverNames : List String := ["_", "super", "self", "Self", "crate"]

end TypedSheets.Code
