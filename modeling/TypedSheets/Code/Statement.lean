import TypedSheets.Code.Atom

/-!
# Statements

* `startsItem` — whether a statement declares something
* `Rules.statement` — one statement
* `Rules.nextStatements` — the statements of a block
-/

namespace TypedSheets.Code

open Reader

/-- Whether the words of a function start here, behind the words for its kind. -/
def startsSignature (ts : Tokens) : Bool := startsAnyWord ["unsafe", "extern", "fn"] ts

/-- Whether a constant is declared here, and not a constant block or closure. -/
def startsConstItem (ts : Tokens) : Bool :=
  let second := ts.drop 1
  startsWord "const" ts &&
    !(startsGroup .brace second || startsAnyWord ["static", "move"] second || startsOp "|" second ||
      (startsWord "async" second && !startsSignature (ts.drop 2)))

/-- Whether a statement declares something, apart from the call of a macro that does. -/
def startsItem (ts : Tokens) : Bool :=
  let second := ts.drop 1
  startsAnyWord ["pub", "extern", "use", "fn", "mod", "type", "struct", "enum", "trait", "impl",
      "macro"] ts ||
    (startsWord "crate" ts && !startsOp "::" second) ||
    (startsWord "static" ts && (startsWord "mut" second || startsName second)) ||
    startsConstItem ts ||
    (startsWord "unsafe" ts && !startsGroup .brace second) ||
    (startsWord "async" ts && startsSignature second) ||
    (startsWord "union" ts && startsName second) ||
    (startsWord "auto" ts && startsWord "trait" second) ||
    (startsWord "default" ts && startsAnyWord ["unsafe", "impl"] second)

/-- What stands behind the path of a macro at the start of a statement. -/
def behindPath? (ts : Tokens) : Option Tokens :=
  ((NamePath.read isModuleName).run ts).map Prod.snd

/-- Whether the call of a macro declares something by name. -/
def startsNamedCall (ts : Tokens) : Bool :=
  match behindPath? ts with
  | some rest => startsOp "!" rest && (startsName (rest.drop 1) || startsWord "try" (rest.drop 1))
  | none => false

/-- Whether the call of a macro with braces is a statement of its own. -/
def startsBracedCall (ts : Tokens) : Bool :=
  match behindPath? ts with
  | some rest =>
    startsOp "!" rest && startsGroup .brace (rest.drop 1) &&
      !(startsMember (rest.drop 2) || startsOp "?" (rest.drop 2))
  | none => false

namespace Rules

/-- A pattern with the value that it takes apart, and perhaps what happens if it does not match. -/
def localBinding (g : Rules) : Reader Tokens := do
  let start := (← word "let") ++ (← g.pattern).tokens
  let annotation ← whenSees (startsOp ":") do return (← op ":") ++ (← g.type true).tokens
  let value ← whenSees (startsOp "=") do
    let eq ← op "="
    let e ← g.expr true
    if !endsWithBrace e.tokens && (← seesWord "else") then
      return eq ++ e.tokens ++ (← word "else") ++ (← g.block)
    else return eq ++ e.tokens
  return start ++ annotation ++ value ++ (← op ";")

/-- A statement, and whether it has to be the last one. -/
def statement (g : Rules) : Reader (Tokens × Bool) := do
  let start ← get
  let attributes ← g.outer
  let ts ← get
  if startsBracedCall ts then
    let path ← NamePath.read isModuleName
    return (attributes ++ path.tokens ++ (← bangGroup) ++ (← optionalOp ";"), false)
  else if startsWord "let" ts then return (attributes ++ (← g.localBinding), false)
  else if startsItem ts || startsNamedCall ts then
    set start
    return (← g.item, false)
  else
    let e ← g.bounded
    let semicolon ← optionalOp ";"
    return ((e.withAttributes attributes).tokens ++ semicolon,
      semicolon.isEmpty && e.needsSemicolon)

/-- The statements of a block. Only the last one may lack its semicolon, where one is needed. -/
def nextStatements (g : Rules) : Reader Tokens := do
  let (tokens, _) ← iterate (fun (done, isLast) => do
    if ← atEnd then return none
    else if isLast then failure
    else if ← seesOp ";" then return some (done ++ (← op ";"), false)
    else
      let (tokens, isLast) ← g.statement
      return some (done ++ tokens, isLast)) ([], false)
  return tokens

end Rules

end TypedSheets.Code
