import TypedSheets.Code.Lexer

/-!
# Building code

* `Code.path` — a path below another
* `Code.stringExpr`, `Code.vecExpr`, `Code.optionExpr`, `Code.structExpr` — expressions
* `Code.template` — tokens of a text with holes
* `Code.memberName?` — the name of a member as an identifier
-/

namespace TypedSheets.Code

/-- The tokens in parentheses. -/
def parens (ts : Tokens) : Tokens := [.group .paren ts]

/-- The tokens in braces. -/
def braces (ts : Tokens) : Tokens := [.group .brace ts]

/-- A path below another one. -/
def path (root : Tokens) (segments : List String) : Tokens :=
  root ++ segments.flatMap fun s => operator "::" ++ [Token.name s]

/-- A path from the root of the standard library. -/
def stdPath (segments : List String) : Tokens := path [] ("std" :: segments)

/-- The literal of a text. -/
def textLiteral (s : String) : Token := .literal (Lexer.stringLiteral s)

/-- An owned text. -/
def stringExpr (s : String) : Tokens :=
  stdPath ["string", "String", "from"] ++ parens [textLiteral s]

/-- The elements with commas between them. -/
def commaSeparated : List Tokens → Tokens
  | [] => []
  | [ts] => ts
  | ts :: rest => ts ++ Token.mark ',' :: commaSeparated rest

/-- A list of these elements. -/
def vecExpr (elements : List Tokens) : Tokens :=
  stdPath ["vec"] ++ [Token.mark '!', .group .bracket (commaSeparated elements)]

/-- An optional value. -/
def optionExpr : Option Tokens → Tokens
  | some ts => stdPath ["option", "Option", "Some"] ++ parens ts
  | none => stdPath ["option", "Option", "None"]

/-- A truth value. -/
def boolExpr (b : Bool) : Tokens := [Token.name (if b then "true" else "false")]

/-- A structure with these fields, each followed by a comma. -/
def structExpr (name : Tokens) (fields : List (String × Tokens)) : Tokens :=
  name ++ braces (fields.flatMap fun f =>
    Token.name f.1 :: Token.mark ':' :: f.2 ++ [Token.mark ','])

/-- The fields of a structure on one line, with commas between them. -/
def inlineStruct (name : Tokens) (fields : List (String × Tokens)) : Tokens :=
  name ++ braces (commaSeparated (fields.map fun f => Token.name f.1 :: Token.mark ':' :: f.2))

mutual

/-- A token with the holes inside it filled. -/
def fillToken (holes : List (String × Tokens)) : Token → Token
  | .group d ts => .group d (fill holes ts)
  | t => t

/-- Tokens with their holes filled. A hole is a name behind an at sign. -/
def fill (holes : List (String × Tokens)) : Tokens → Tokens
  | .punct '@' _ :: .ident n _ :: rest => (holes.lookup n).getD [] ++ fill holes rest
  | t :: rest => fillToken holes t :: fill holes rest
  | [] => []

end

/-- The tokens of a text with its holes filled. -/
def template (holes : List (String × Tokens)) (text : String) : Tokens :=
  fill holes ((tokenize? text).getD [])

/-- The name of a member as an identifier, raw if it is a keyword; `none` if it is no identifier at
all. -/
def memberName? (name : String) : Option Token :=
  if !isIdentifier name then none
  else if !isKeyword name then some (.ident name false)
  else if neverNames.contains name then none
  else some (.ident name true)

end TypedSheets.Code
