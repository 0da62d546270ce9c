import TypedSheets.Code.Bound

/-!
# Types

A type is read to its shape and to its tokens in normal form; types outside the known shapes keep
the text of their tokens.

* `Rules.nextType` — a type
-/

namespace TypedSheets.Code

open Reader

/-- Whether the type of a function starts here. -/
def startsFn (ts : Tokens) : Bool := startsAnyWord ["fn", "unsafe", "extern"] ts

/-- Whether a name and a colon are in front, and dots behind them. -/
def startsRest (ts : Tokens) : Bool :=
  startsOp "..." ts ||
    ((startsName ts || startsWord "_" ts) && startsOp ":" (ts.drop 1) && startsOp "..." (ts.drop 2))

namespace Rules

/-- The calling convention of a function, perhaps none. -/
def convention : Reader Tokens :=
  whenSees (startsWord "extern") do
    let keyword ← word "extern"
    let isName : Token → Bool := fun t => match t with | .literal s => isTextLiteral s | _ => false
    return keyword ++ (← whenSees (fun ts => ts.head?.any isName) do return [← token isName])

/-- The last argument of a function that takes any number of them. -/
def restArg : Reader Tokens := do
  let label ← whenSees (fun ts => !startsOp "..." ts) do return (← nameOrGap) ++ (← op ":")
  return label ++ (← op "...") ++ (← optionalOp ",")

/-- The receiver as the argument of a function: it may be mutable and have a type. -/
def mutableReceiver (g : Rules) : Reader Tokens := do
  return (← word "mut") ++ (← word "self") ++ (← whenSees (startsOp ":") do
    return (← op ":") ++ (← g.type true).tokens)

/-- Whether an argument has a name. -/
def startsLabel (isFirst : Bool) (ts : Tokens) : Bool :=
  (startsName ts || startsWord "_" ts || (isFirst && startsWord "self" ts)) &&
    startsOp ":" (ts.drop 1) && !startsOp "::" (ts.drop 1)

/-- Whether a mutable receiver is in front. -/
def startsMutableReceiver (ts : Tokens) : Bool :=
  startsWord "mut" ts && startsWord "self" (ts.drop 1)

/-- The argument of a function: a type, perhaps behind a name. The first one may be a receiver that
is mutable, which is kept as it was written. -/
def fnArg (g : Rules) (isFirst : Bool) : Reader Tokens := do
  if isFirst && (← sees startsMutableReceiver) then
    let isBare ← sees fun ts => startsOp "::" (ts.drop 2)
    if isBare then written (word "mut" *> word "self") else written g.mutableReceiver
  else if ← sees (startsLabel isFirst) then
    let start ← get
    let label := [← token isAnyName] ++ (← op ":")
    if isFirst && !startsWord "self" start && (← sees startsMutableReceiver) then
      let _ ← word "mut"
      let _ ← word "self"
      since start
    else return label ++ (← g.type true).tokens
  else return (← g.type true).tokens

/-- The arguments of a function, up to the end. -/
def fnArgs (g : Rules) : Reader Tokens := do
  let (args, _) ← iterate (fun (done, isFirst) => do
    if ← atEnd then return none
    let attributes ← g.outer
    if ← sees startsRest then
      let last ← restArg
      if ← atEnd then return some (done ++ attributes ++ last, false) else failure
    let arg ← g.fnArg isFirst
    if ← atEnd then return some (done ++ attributes ++ arg, false)
    return some (done ++ attributes ++ arg ++ (← op ","), false)) ([], true)
  return args

/-- The type of a function. -/
def fnType (g : Rules) : Reader Tokens := do
  let start := (← optionalWord "unsafe") ++ (← convention) ++ (← word "fn")
  let args ← grouped .paren g.fnArgs
  return start ++ args ++ (← g.result false)

/-- A bound in parentheses that starts a list of bounds. -/
def parenBound (g : Rules) (inner : Tokens) : Reader TypeSyntax := do
  let rest ← g.plusBounds
  let tokens := .group .paren inner :: rest
  if rest.isEmpty then return { TypeSyntax.other tokens with form := .bound inner }
  else return .other tokens

/-- A type in parentheses: nothing, bounds, a tuple, or a type; in front of a plus sign the first of
several bounds. -/
def parenType (g : Rules) (allowPlus : Bool) : Reader TypeSyntax := do
  match ← get with
  | .group .paren [] :: rest =>
    set rest
    return ⟨.tuple [], [.group .paren []], .other⟩
  | .group .paren inner :: _ =>
    if startsLifetime inner then
      let body ← inGroup .paren (g.bounds .object true)
      return ⟨.other (Token.textOf body), [.group .paren body], .other⟩
    else if startsOp "?" inner then
      g.parenBound (← inGroup .paren do return (← g.traitBound .object).2)
    else
      let elements ← inGroup .paren (separated "," List.isEmpty (g.type true))
      match elements with
      | [(t, [])] =>
        match t.form, allowPlus && (← seesOp "+") with
        | .path _, true => g.parenBound t.tokens
        | .bound tokens, true => g.parenBound tokens
        | _, _ => return ⟨t.shape, [.group .paren t.tokens], .other⟩
      | _ =>
        return ⟨.tuple (elements.map fun e => e.1.shape),
          [.group .paren (sequence (elements.map fun e => (e.1.tokens, e.2)))], .other⟩
  | _ => failure

/-- A type that starts with a path: the path, the call of a macro, or bounds. Parameters behind
`for` stand in front, perhaps none. -/
def pathType (g : Rules) (lifetimes : Tokens) (allowPlus : Bool) : Reader TypeSyntax := do
  let p ← g.anyPath false
  if p.isQualified then return .other p.tokens
  else if p.isPlain && (← sees startsBang) then return .other (p.tokens ++ (← bangGroup))
  else if allowPlus && (← seesOp "+") then
    let plus ← op "+"
    let rest ← g.boundList .object
    return .other (lifetimes ++ p.tokens ++ plus ++ rest.flatMap fun b => b.1.tokens ++ b.2)
  else if lifetimes.isEmpty then return ⟨.path p.segments p.last.types, p.tokens, .path p⟩
  else
    let tokens := lifetimes ++ p.tokens
    return { TypeSyntax.other tokens with form := .bound tokens }

/-- A type behind parameters. -/
def quantifiedType (g : Rules) (allowPlus : Bool) : Reader TypeSyntax := do
  let lifetimes ← g.boundLifetimes
  if ← sees startsFn then return .other (lifetimes ++ (← g.fnType))
  else if ← sees startsPathName then g.pathType lifetimes allowPlus
  else failure

/-- The type of an object. One with a star is kept as it was written. -/
def objectType (g : Rules) (allowPlus : Bool) : Reader TypeSyntax := do
  let start ← get
  let keyword ← word "dyn"
  let star ← optionalOp "*"
  let bounds ← g.bounds .object allowPlus
  if star.isEmpty then return .other (keyword ++ bounds) else return .other (← since start)

/-- The type of an array or of a slice. -/
def bracketType (g : Rules) : Reader TypeSyntax :=
  inGroup .bracket do
    let element ← g.type true
    if ← seesOp ";" then
      let semicolon ← op ";"
      let length ← g.expr true
      return ⟨.array element.shape (Token.textOf length.tokens),
        [.group .bracket (element.tokens ++ semicolon ++ length.tokens)], .other⟩
    else return ⟨.slice element.shape, [.group .bracket element.tokens], .other⟩

/-- The type of a pointer. -/
def pointerType (g : Rules) : Reader TypeSyntax := do
  let star ← op "*"
  let access ← if ← seesWord "const" then word "const" else word "mut"
  return .other (star ++ access ++ (← g.type false).tokens)

/-- The type of a reference. -/
def referenceType (g : Rules) : Reader TypeSyntax := do
  let amp ← op "&"
  let lifetime ← whenSees startsLifetime Reader.lifetime
  let mutability ← optionalWord "mut"
  let t ← g.type false
  return ⟨.reference (!mutability.isEmpty) t.shape,
    amp ++ lifetime ++ mutability ++ t.tokens, .other⟩

/-- A type. -/
def nextType (g : Rules) (allowPlus : Bool) : Reader TypeSyntax := do
  if ← seesWord "for" then g.quantifiedType allowPlus
  else if ← seesGroup .paren then g.parenType allowPlus
  else if ← sees startsFn then return .other (← g.fnType)
  else if ← sees startsPath then g.pathType [] allowPlus
  else if ← seesWord "dyn" then g.objectType allowPlus
  else if ← seesGroup .bracket then g.bracketType
  else if ← seesOp "*" then g.pointerType
  else if ← seesOp "&" then g.referenceType
  else if ← seesOp "!" then return .other (← op "!")
  else if ← seesWord "impl" then
    return .other ((← word "impl") ++ (← g.bounds .anonymous allowPlus))
  else if ← seesWord "_" then return .other (← word "_")
  else if ← sees startsLifetime then return .other (← g.bounds .object true)
  else failure

end Rules

end TypedSheets.Code
