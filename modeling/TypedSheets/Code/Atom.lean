import TypedSheets.Code.Expr

/-!
# Operands

What stands between the operators of an expression: literals, paths and calls of macros, groups,
closures, jumps, and the expressions that end with a block.

* `Rules.blockExpr` — conditions, loops, matches and blocks
* `Rules.closure`, `Rules.structExpr`, `Rules.pathExpr`, `Rules.jump` — other operands
* `Rules.atom` — an operand without signs and trailers
* `Rules.nextOperand`, `Rules.nextExpr`, `Rules.nextBounded` — expressions
-/

namespace TypedSheets.Code

open Reader

/-- Whether parameters of a closure stand behind the word `for`. -/
def startsQuantifier (ts : Tokens) : Bool :=
  startsWord "for" ts && startsOp "<" (ts.drop 1) &&
    (startsLifetime (ts.drop 2) || startsOp ">" (ts.drop 2))

/-- Whether a closure starts here. -/
def startsClosure (ts : Tokens) : Bool :=
  startsOp "|" ts || startsWord "move" ts || startsQuantifier ts ||
    (startsWord "const" ts && !startsGroup .brace (ts.drop 1)) || startsWord "static" ts ||
    (startsWord "async" ts && (startsOp "|" (ts.drop 1) || startsWord "move" (ts.drop 1)))

/-- Whether an asynchronous block starts here. -/
def startsAsyncBlock (ts : Tokens) : Bool :=
  startsWord "async" ts &&
    (startsGroup .brace (ts.drop 1) ||
      (startsWord "move" (ts.drop 1) && startsGroup .brace (ts.drop 2)))

/-- Whether an expression that ends with a block starts here. -/
def startsBlockExpr (ts : Tokens) : Bool :=
  startsAnyWord ["if", "while", "loop", "match", "unsafe"] ts ||
    (startsWord "for" ts && !startsQuantifier ts) ||
    (startsAnyWord ["try", "const"] ts && startsGroup .brace (ts.drop 1)) ||
    startsGroup .brace ts || startsLifetime ts

/-- Whether a path starts an operand here. -/
def startsPathExpr (ts : Tokens) : Bool :=
  startsPath ts ||
    (startsWord "try" ts && (startsOp "!" (ts.drop 1) || startsOp "::" (ts.drop 1)))

/-- Whether an expression starts here. -/
def startsExpr (ts : Tokens) : Bool :=
  (startsAnyName ts && !startsWord "as" ts) || startsGroup .paren ts || startsGroup .bracket ts ||
    startsGroup .brace ts || startsSignedLiteral ts || (startsOp "!" ts && !startsOp "!=" ts) ||
    (startsOp "-" ts && !startsOp "-=" ts && !startsOp "->" ts) ||
    (startsOp "*" ts && !startsOp "*=" ts) || (startsOp "|" ts && !startsOp "|=" ts) ||
    (startsOp "&" ts && !startsOp "&=" ts) || startsOp ".." ts ||
    (startsOp "<" ts && !startsOp "<=" ts && !startsOp "<<=" ts) || startsOp "::" ts ||
    startsLifetime ts || startsOp "#" ts

namespace Rules

/-- What stands between a keyword and a block: an expression without the literal of a structure. -/
def headExpr (g : Rules) : Reader Tokens := do return (← g.expr false).tokens

/-- A condition, with the further conditions behind it. -/
def conditional (g : Rules) : Reader Tokens := do
  let (tokens, _) ← iterate (fun (done, isOpen) => do
    if !isOpen then return none
    let branch := (← word "if") ++ (← g.headExpr) ++ (← g.block)
    if ← seesWord "else" then
      let otherwise ← word "else"
      if ← seesWord "if" then return some (done ++ branch ++ otherwise, true)
      else return some (done ++ branch ++ otherwise ++ (← g.block), false)
    else return some (done ++ branch, false)) ([], true)
  return tokens

/-- A loop: over what an expression gives, under a condition, or without end. -/
def loopExpr (g : Rules) : Reader Tokens := do
  if ← seesWord "while" then
    return (← word "while") ++ (← g.headExpr) ++ (← g.attributedBlock)
  else if ← seesWord "for" then
    let start := (← word "for") ++ (← g.alternatives).tokens ++ (← word "in")
    return start ++ (← g.headExpr) ++ (← g.attributedBlock)
  else return (← word "loop") ++ (← g.attributedBlock)

/-- An expression behind a label: a loop or a block. -/
def labelled (g : Rules) : Reader Tokens := do
  let label := (← Reader.lifetime) ++ (← op ":")
  if ← seesGroup .brace then return label ++ (← g.attributedBlock)
  else return label ++ (← g.loopExpr)

/-- One arm of a match. A comma has to stand behind it, unless it ends with a block or is last. -/
def arm (g : Rules) : Reader Tokens := do
  let start := (← g.outer) ++ (← g.alternatives).tokens
  let guard ← whenSees (startsWord "if") do return (← word "if") ++ (← g.expr true).tokens
  let arrow ← op "=>"
  let body ← g.bounded
  let comma ← if (← atEnd) || body.form = .block then optionalOp "," else op ","
  return start ++ guard ++ arrow ++ body.tokens ++ comma

/-- A match with its arms. -/
def matchExpr (g : Rules) : Reader Tokens := do
  let start := (← word "match") ++ (← g.headExpr)
  let arms ← grouped .brace do
    return (← g.innerAttributes) ++ (← whileSees (fun ts => !ts.isEmpty) g.arm)
  return start ++ arms

/-- An expression that ends with a block. -/
def blockExpr (g : Rules) : Reader Tokens := do
  if ← seesWord "if" then g.conditional
  else if ← sees (startsAnyWord ["while", "for", "loop"]) then g.loopExpr
  else if ← seesWord "match" then g.matchExpr
  else if ← seesWord "try" then return (← word "try") ++ (← g.block)
  else if ← seesWord "unsafe" then return (← word "unsafe") ++ (← g.attributedBlock)
  else if ← seesWord "const" then return (← word "const") ++ (← g.attributedBlock)
  else if ← sees startsLifetime then g.labelled
  else g.attributedBlock

/-- A parameter of a closure. What is boxed loses its attributes. -/
def closureParameter (g : Rules) : Reader Tokens := do
  let attributes ← g.outer
  let p ← g.pattern
  if ← seesOp ":" then
    return attributes ++ p.tokens ++ (← op ":") ++ (← g.type true).tokens
  else if p.form = .verbatim then return p.tokens
  else return attributes ++ p.tokens

/-- A closure. Its body is a block where its result is given. -/
def closure (g : Rules) (allowStruct : Bool) : Reader Tokens := do
  let start := (← g.optionalBoundLifetimes) ++ (← optionalWord "const") ++
    (← optionalWord "static") ++ (← optionalWord "async") ++ (← optionalWord "move") ++ (← op "|")
  let ps ← separated "," (startsOp "|") g.closureParameter
  let bar ← op "|"
  let result ← g.result true
  let body ← if result.isEmpty then ExprSyntax.tokens <$> g.expr allowStruct else g.block
  return start ++ sequence ps ++ bar ++ result ++ body

/-- A field of a structure with its value. -/
def fieldValue (g : Rules) : Reader Tokens := do
  let attributes ← g.outer
  let isNamed ← sees startsName
  let member ← memberName
  if !isNamed || (← seesOp ":") then
    return attributes ++ member ++ (← op ":") ++ (← g.expr true).tokens
  else return attributes ++ member

/-- The fields of a structure. Dots and a value for the others may stand last. -/
def fieldValues (g : Rules) : Reader Tokens :=
  iterate (fun done => do
    if ← atEnd then return none
    if ← seesOp ".." then
      let dots ← op ".."
      if ← atEnd then return some (done ++ dots)
      let rest ← g.expr true
      if ← atEnd then return some (done ++ dots ++ rest.tokens) else failure
    let field ← g.fieldValue
    if ← atEnd then return some (done ++ field)
    return some (done ++ field ++ (← op ","))) []

/-- A path, the call of a macro, or a structure with its fields. -/
def pathExpr (g : Rules) (allowStruct : Bool) : Reader ExprSyntax := do
  let p ← g.anyPath true
  if !p.isQualified && p.isPlain && (← sees startsBang) then
    let call := p.tokens ++ (← bangGroup)
    return .of (if endsWithBrace call then .bracedCall else .plain) call
  else if allowStruct && (← seesGroup .brace) then
    return .plain (p.tokens ++ (← grouped .brace g.fieldValues))
  else return .plain p.tokens

/-- The elements of an array: between commas, or one and the number of its repetitions. -/
def elements (g : Rules) : Reader Tokens := do
  if ← atEnd then return []
  let first ← g.expr true
  if ← seesOp ";" then
    return first.tokens ++ (← op ";") ++ (← g.expr true).tokens
  else if ← atEnd then return first.tokens
  else return first.tokens ++ (← op ",") ++ (← g.exprList)

/-- A value behind a jump, if one stands there. -/
def jumpValue (g : Rules) : Reader Tokens := whenSees startsExpr (ExprSyntax.tokens <$> g.expr true)

/-- A jump: out of a loop, to its next turn, or out of a function. -/
def jump (g : Rules) (allowStruct : Bool) : Reader ExprSyntax := do
  if ← seesWord "break" then
    let start := (← word "break") ++ (← whenSees startsLifetime Reader.lifetime)
    if start.length == 2 && (← seesOp ":") then failure
    let hasValue (ts : Tokens) : Bool := startsExpr ts && (allowStruct || !startsGroup .brace ts)
    return .plain (start ++ (← whenSees hasValue (ExprSyntax.tokens <$> g.expr allowStruct)))
  else if ← seesWord "continue" then
    return .plain ((← word "continue") ++ (← whenSees startsLifetime Reader.lifetime))
  else if ← seesWord "return" then return .plain ((← word "return") ++ (← g.jumpValue))
  else if ← seesWord "yield" then return .plain ((← word "yield") ++ (← g.jumpValue))
  else return .of .verbatim (← written (word "become" *> g.expr true))

/-- A pattern that a value is matched with, as a condition. -/
def letExpr (g : Rules) (allowStruct : Bool) : Reader Tokens := do
  let start := (← word "let") ++ (← g.alternatives).tokens ++ (← op "=")
  let first ← g.operand allowStruct
  return start ++ (← g.climb allowStruct .compare first).tokens

/-- What only the compiler provides, kept as it is written. -/
def intrinsic : Reader Tokens :=
  written do
    let _ ← word "builtin"
    let _ ← op "#"
    let _ ← name
    token fun t => startsGroup .paren [t]

/-- An operand without signs and without what stands behind it. -/
def atom (g : Rules) (allowStruct : Bool) : Reader ExprSyntax := do
  if ← sees startsLiteral then return .plain [← token fun t => startsLiteral [t]]
  else if ← sees startsAsyncBlock then
    return .plain ((← word "async") ++ (← optionalWord "move") ++ (← g.block))
  else if ← sees startsClosure then return .plain (← g.closure allowStruct)
  else if ← sees startsBlockExpr then return .of .block (← g.blockExpr)
  else if ← sees fun ts => startsWord "builtin" ts && startsOp "#" (ts.drop 1) then
    return .of .verbatim (← intrinsic)
  else if ← sees startsPathExpr then g.pathExpr allowStruct
  else if ← seesGroup .paren then return .plain (← grouped .paren g.exprList)
  else if ← seesGroup .bracket then return .plain (← grouped .bracket g.elements)
  else if ← sees (startsAnyWord ["break", "continue", "return", "yield", "become"]) then
    g.jump allowStruct
  else if ← seesWord "let" then return .plain (← g.letExpr allowStruct)
  else if ← seesOp ".." then g.startlessRange allowStruct
  else if ← seesWord "_" then return .plain (← word "_")
  else failure

/-- The signs in front of an operand. -/
def signs : List String := ["*", "!", "-"]

/-- A reference to an operand, or its address. -/
def borrow (g : Rules) (allowStruct : Bool) : Reader Tokens := do
  let amp ← op "&"
  let isRaw (ts : Tokens) : Bool :=
    startsWord "raw" ts && startsAnyWord ["mut", "const"] (ts.drop 1)
  let raw ← whenSees isRaw (word "raw")
  let mutability ← optionalWord "mut"
  let access ← if !raw.isEmpty && mutability.isEmpty then word "const" else pure []
  return amp ++ raw ++ mutability ++ access ++ (← g.operand allowStruct).tokens

/-- An expression without operators between operands. What is kept as it was written keeps its
attributes so too. -/
def nextOperand (g : Rules) (allowStruct : Bool) : Reader ExprSyntax := do
  let start ← get
  let attributes ← g.outer
  if ← seesOp "&" then return .plain (attributes ++ (← g.borrow allowStruct))
  else
    match signs.find? (startsOp · (← get)) with
    | some sign =>
      return .plain (attributes ++ (← op sign) ++ (← g.operand allowStruct).tokens)
    | none =>
      let e ← g.trailers (← g.atom allowStruct)
      if e.form = .verbatim then return { e with tokens := ← since start }
      else if e.form = .range && !attributes.isEmpty then failure
      else return { e with tokens := attributes ++ e.tokens }

/-- An expression. -/
def nextExpr (g : Rules) (allowStruct : Bool) : Reader ExprSyntax := do
  g.climb allowStruct .least (← g.nextOperand allowStruct)

/-- An expression that an arm of a match or a statement consists of: one that ends with a block is
complete, unless a member or a question mark follows. -/
def nextBounded (g : Rules) : Reader ExprSyntax := do
  let attributes ← g.outer
  if ← sees startsBlockExpr then
    let e := ExprSyntax.of .block (← g.blockExpr)
    if ← sees fun ts => startsMember ts || startsOp "?" ts then
      g.climb true .least ((← g.trailers e).withAttributes attributes)
    else return e.withAttributes attributes
  else g.climb true .least ((← g.nextOperand true).withAttributes attributes)

end Rules

end TypedSheets.Code
