import TypedSheets.Code.Literal
import TypedSheets.Code.Path

/-!
# Patterns

* `Rules.nextPattern` — a pattern without alternatives
* `Rules.alternatives` — patterns between bars
* `Rules.memberName` — the name or the index of a member
-/

namespace TypedSheets.Code

open Reader

/-- A pattern of no particular form. -/
def PatternSyntax.plain (tokens : Tokens) : PatternSyntax := ⟨.plain, tokens⟩

/-- Whether a pattern starts with a path here, and not with a name that it binds. -/
def startsPatternPath (ts : Tokens) : Bool :=
  let second := ts.drop 1
  (startsName ts &&
    (startsOp "::" second || startsOp "!" second || startsGroup .brace second ||
      startsGroup .paren second || startsOp ".." second)) ||
    (startsWord "self" ts && startsOp "::" second) ||
    startsOp "::" ts || startsOp "<" ts || startsAnyWord ["Self", "super", "crate"] ts

/-- Whether the end of a range is left open here. -/
def endsPatternRange (ts : Tokens) : Bool :=
  ts.isEmpty || startsOp "|" ts || startsOp "=" ts || (startsOp ":" ts && !startsOp "::" ts) ||
    startsOp "," ts || startsOp ";" ts || startsWord "if" ts

/-- Whether one more alternative follows. -/
def startsAlternative (ts : Tokens) : Bool :=
  startsOp "|" ts && !startsOp "||" ts && !startsOp "|=" ts

/-- Whether a token is an integer that an index can be. -/
def isIndex : Token → Bool
  | .literal s => (Lexer.indexValue? s.toList).isSome
  | _ => false

/-- The token of an index: its decimal text. -/
def indexToken : Token → Token
  | .literal s => .literal (Number.natText ((Lexer.indexValue? s.toList).getD 0))
  | t => t

/-- The dots of a range, and whether they take an end in. -/
structure RangeDots where
  isClosed : Bool
  tokens : Tokens

namespace Rules

/-- The dots of a range. -/
def rangeDots : Reader RangeDots := do
  if ← seesOp "..=" then return ⟨true, ← op "..="⟩
  else if ← seesOp "..." then failure
  else return ⟨false, ← op ".."⟩

/-- The dots of a range in a pattern, where three dots stand for a closed one. -/
def patternDots : Reader RangeDots := do
  if ← seesOp "..." then
    let _ ← op "..."
    return ⟨true, operator "..="⟩
  else rangeDots

/-- The name or the index of a member. -/
def memberName : Reader Tokens := do
  if ← sees startsName then name else return [indexToken (← token isIndex)]

/-- An end of a range in a pattern. -/
def rangeEnd (g : Rules) : Reader Tokens := do
  if ← sees startsSignedLiteral then signedLiteral
  else if ← seesWord "const" then return (← word "const") ++ (← g.attributedBlock)
  else if ← sees startsPath then return (← g.anyPath true).tokens
  else failure

/-- What follows the start of a range, which may be open. -/
def rangeTail (g : Rules) (start : Tokens) : Reader PatternSyntax := do
  let dots ← patternDots
  if ← sees endsPatternRange then
    if dots.isClosed then failure else return ⟨.openRange, start ++ dots.tokens⟩
  else return ⟨.plain, start ++ dots.tokens ++ (← g.rangeEnd)⟩

/-- Patterns between bars; a bar may lead. -/
def alternatives (g : Rules) : Reader PatternSyntax := do
  let bar ← optionalOp "|"
  let first ← g.pattern
  let rest ← whileSees startsAlternative do return (← op "|") ++ (← g.pattern).tokens
  if bar.isEmpty && rest.isEmpty then return first
  else return .plain (bar ++ first.tokens ++ rest)

/-- Patterns with commas between them, up to the end. -/
def patternList (g : Rules) : Reader Tokens := commaList (PatternSyntax.tokens <$> g.alternatives)

/-- The elements of a slice. A range without one of its ends has to stand in parentheses. -/
def slicePatterns (g : Rules) : Reader Tokens :=
  commaList do
    let p ← g.alternatives
    if p.form = .openRange then failure else return p.tokens

/-- A field of a structure in a pattern. What is boxed is kept as it was written. -/
def fieldPattern (g : Rules) : Reader Tokens := do
  let start ← get
  let boxed ← optionalWord "box"
  let binding := (← optionalWord "ref") ++ (← optionalWord "mut")
  if !boxed.isEmpty then
    let _ ← name
    since start
  else if !binding.isEmpty then return binding ++ (← name)
  else
    let isNamed ← sees startsName
    let member ← memberName
    if !isNamed || (← seesOp ":") then
      return member ++ (← op ":") ++ (← g.alternatives).tokens
    else return member

/-- The fields of a structure in a pattern. Dots for the others may stand last. -/
def fieldPatterns (g : Rules) : Reader Tokens :=
  iterate (fun done => do
    if ← atEnd then return none
    let attributes ← g.outer
    if ← seesOp ".." then
      let dots ← op ".."
      if ← atEnd then return some (done ++ attributes ++ dots) else failure
    let field ← g.fieldPattern
    if ← atEnd then return some (done ++ attributes ++ field)
    return some (done ++ attributes ++ field ++ (← op ","))) []

/-- A pattern that starts with a path. -/
def pathPattern (g : Rules) : Reader PatternSyntax := do
  let p ← g.anyPath true
  if !p.isQualified && p.isPlain && (← sees startsBang) then
    return .plain (p.tokens ++ (← bangGroup))
  else if ← seesGroup .brace then return .plain (p.tokens ++ (← grouped .brace g.fieldPatterns))
  else if ← seesGroup .paren then return .plain (p.tokens ++ (← grouped .paren g.patternList))
  else if ← seesOp ".." then g.rangeTail p.tokens
  else return .plain p.tokens

/-- A literal or a constant, or a range that starts so. -/
def literalPattern (g : Rules) : Reader PatternSyntax := do
  let start ← g.rangeEnd
  if ← seesOp ".." then g.rangeTail start else return .plain start

/-- A name that is bound, perhaps to what matches another pattern. -/
def namePattern (g : Rules) : Reader PatternSyntax := do
  let binding := (← optionalWord "ref") ++ (← optionalWord "mut")
  let n ← if ← seesWord "self" then word "self" else name
  let inner ← whenSees (startsOp "@") do return (← op "@") ++ (← g.pattern).tokens
  return .plain (binding ++ n ++ inner)

/-- Dots alone, or a range without a start. -/
def dotsPattern (g : Rules) : Reader PatternSyntax := do
  let dots ← rangeDots
  if ← sees endsPatternRange then
    if dots.isClosed then failure else return .plain dots.tokens
  else return ⟨.openRange, dots.tokens ++ (← g.rangeEnd)⟩

/-- Whether a pattern starts with a literal or a constant. -/
def startsLiteralPattern (ts : Tokens) : Bool :=
  startsOp "-" ts || startsLiteral ts || startsWord "const" ts

/-- A pattern without alternatives. -/
def nextPattern (g : Rules) : Reader PatternSyntax := do
  if ← sees startsPatternPath then g.pathPattern
  else if ← seesWord "_" then return .plain (← word "_")
  else if ← seesWord "box" then return ⟨.verbatim, ← written (word "box" *> g.pattern)⟩
  else if ← sees startsLiteralPattern then g.literalPattern
  else if ← sees fun ts => startsAnyWord ["ref", "mut", "self"] ts || startsName ts then
    g.namePattern
  else if ← seesOp "&" then
    return .plain ((← op "&") ++ (← optionalWord "mut") ++ (← g.pattern).tokens)
  else if ← seesGroup .paren then return .plain (← grouped .paren g.patternList)
  else if ← seesGroup .bracket then return .plain (← grouped .bracket g.slicePatterns)
  else if ← seesOp ".." then g.dotsPattern
  else failure

end Rules

end TypedSheets.Code
