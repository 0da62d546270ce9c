import TypedSheets.Code.Path

/-!
# Bounds and parameters

What a type has to satisfy, and the parameters that an item or a type takes.

* `Rules.boundLifetimes` — the parameters behind `for`
* `Rules.nextBound`, `Rules.bounds` — one bound, and bounds between plus signs
* `Rules.parameters`, `Rules.whereClause` — the parameters and conditions of an item
-/

namespace TypedSheets.Code

open Reader

/-- Whether a further bound follows a plus sign. -/
def startsBound (place : BoundPlace) (ts : Tokens) : Bool :=
  startsAnyName ts || startsOp "::" ts || startsOp "?" ts || startsLifetime ts ||
    startsGroup .paren ts || (place ≠ .object && startsGroup .bracket ts)

/-- Whether parameters in angle brackets stand here, and no type that a path starts with. -/
def startsParameters (ts : Tokens) : Bool :=
  let second := ts.drop 1
  let third := ts.drop 2
  startsOp "<" ts &&
    (startsOp ">" second || startsOp "#" second || startsWord "const" second ||
      ((startsLifetime second || startsName second) &&
        (startsOp ">" third || startsOp "," third || startsOp "=" third ||
          (startsOp ":" third && !startsOp "::" third))))

/-- Whether a condition of an item, or its bounds, end here. -/
def endsCondition (ts : Tokens) : Bool :=
  ts.isEmpty || startsGroup .brace ts || startsOp "," ts || startsOp ";" ts ||
    (startsOp ":" ts && !startsOp "::" ts) || startsOp "=" ts

/-- A colon and bounds; without bounds no colon either. -/
def colonAnd (bounds : Tokens) : Tokens := if bounds.isEmpty then [] else operator ":" ++ bounds

/-- A parameter of an item. -/
structure ParameterSyntax where
  isLifetime : Bool
  tokens : Tokens

/-- The parameters of an item. -/
structure ParametersSyntax where
  /-- Angle brackets stand there, perhaps with nothing in them. -/
  isGiven : Bool
  count : Nat
  tokens : Tokens

namespace Rules

/-- The lifetimes that a lifetime outlives, with plus signs between them, perhaps none. -/
def lifetimeBounds (isStop : Tokens → Bool) : Reader Tokens := do
  return sequence (← joined "+" isStop Reader.lifetime)

/-- A lifetime as a parameter. -/
def lifetimeParameter : Reader Tokens := do
  let l ← Reader.lifetime
  if ← seesOp ":" then
    let _ ← op ":"
    return l ++ colonAnd (← lifetimeBounds fun ts => startsOp "," ts || startsOp ">" ts)
  else return l

/-- A type as a parameter. -/
def typeParameter (g : Rules) : Reader Tokens := do
  let n ← name
  let isStop (ts : Tokens) : Bool := startsOp "," ts || startsOp ">" ts || startsOp "=" ts
  let bounds ← whenSees (startsOp ":") do
    let _ ← op ":"
    return sequence (← joined "+" isStop do return (← g.bound .parameter).tokens)
  let standard ← whenSees (startsOp "=") do return (← op "=") ++ (← g.type true).tokens
  return n ++ colonAnd bounds ++ standard

/-- A constant as a parameter. -/
def constParameter (g : Rules) : Reader Tokens := do
  let keyword ← word "const"
  let n ← name
  let colon ← op ":"
  let t ← g.type true
  let standard ← whenSees (startsOp "=") do
    let eq ← op "="
    return eq ++ (← if ← sees startsName then name else g.constArg)
  return keyword ++ n ++ colon ++ t.tokens ++ standard

/-- A parameter: a lifetime, a constant or a type. Only an item may leave one open. -/
def parameter (g : Rules) (allowGap : Bool) : Reader ParameterSyntax := do
  let attributes ← g.outer
  if ← sees startsLifetime then return ⟨true, attributes ++ (← lifetimeParameter)⟩
  else if ← seesWord "const" then return ⟨false, attributes ++ (← g.constParameter)⟩
  else if allowGap && (← seesWord "_") then return ⟨false, attributes ++ (← word "_")⟩
  else return ⟨false, attributes ++ (← g.typeParameter)⟩

/-- The parameters in angle brackets, perhaps none; empty brackets are not written. -/
def parameters (g : Rules) : Reader ParametersSyntax := do
  if ← seesOp "<" then
    let lt ← op "<"
    let ps ← separated "," (startsOp ">") (g.parameter true)
    let gt ← op ">"
    let inner := lifetimesFirst ParameterSyntax.isLifetime ParameterSyntax.tokens ps
    return ⟨true, ps.length, if ps.isEmpty then [] else lt ++ inner ++ gt⟩
  else return ⟨false, 0, []⟩

/-- The parameters behind `for`. -/
def boundLifetimes (g : Rules) : Reader Tokens := do
  let quantifier ← word "for"
  let lt ← op "<"
  let ps ← separated "," (startsOp ">") do return (← g.parameter false).tokens
  let gt ← op ">"
  return quantifier ++ lt ++ sequence ps ++ gt

/-- The parameters behind `for`, if they are there. -/
def optionalBoundLifetimes (g : Rules) : Reader Tokens :=
  whenSees (startsWord "for") g.boundLifetimes

/-- The mark of a constant trait: whether it is there. -/
def constMark (place : BoundPlace) : Reader Bool := do
  if place ≠ .object && (← seesGroup .bracket) then
    let _ ← inGroup .bracket (word "const")
    return true
  else if place ≠ .object && (← seesWord "const") then
    let _ ← word "const"
    return true
  else return false

/-- A bound by a trait without the parentheses around it, and whether it is kept as it was
written. -/
def traitBound (g : Rules) (place : BoundPlace) : Reader (Bool × Tokens) := do
  let early ← g.optionalBoundLifetimes
  let isConst ← constMark place
  let maybe ← optionalOp "?"
  let lifetimes ← if maybe.isEmpty || !early.isEmpty then pure early else g.optionalBoundLifetimes
  if !maybe.isEmpty && !lifetimes.isEmpty then failure
  let p ← g.path false
  if p.last.isEmpty && (← sees startsParenArgs) then
    return (isConst, maybe ++ lifetimes ++ p.stem ++ (← g.parenArgs))
  else return (isConst, maybe ++ lifetimes ++ p.tokens)

/-- A name or lifetime that an anonymous type captures. -/
def captured : Reader ParameterSyntax := do
  if ← sees startsLifetime then return ⟨true, ← Reader.lifetime⟩
  else if ← seesWord "Self" then return ⟨false, ← word "Self"⟩
  else return ⟨false, ← name⟩

/-- What an anonymous type captures. -/
def capture : Reader Tokens := do
  let keyword ← word "use"
  let lt ← op "<"
  let ps ← separated "," (startsOp ">") captured
  let gt ← op ">"
  return keyword ++ lt ++ lifetimesFirst ParameterSyntax.isLifetime ParameterSyntax.tokens ps ++ gt

/-- A bound: a lifetime, what is captured, or a trait. -/
def nextBound (g : Rules) (place : BoundPlace) : Reader BoundSyntax := do
  if ← sees startsLifetime then return ⟨false, ← Reader.lifetime⟩
  else if ← seesWord "use" then
    if place = .anonymous then return ⟨false, ← capture⟩ else failure
  else
    let start ← get
    if ← seesGroup .paren then
      let (isConst, tokens) ← inGroup .paren (g.traitBound place)
      return ⟨true, ← if isConst then since start else pure [.group .paren tokens]⟩
    else
      let (isConst, tokens) ← g.traitBound place
      return ⟨true, ← if isConst then since start else pure tokens⟩

/-- Bounds between plus signs, and perhaps one behind the last. -/
def boundList (g : Rules) (place : BoundPlace) : Reader (List (BoundSyntax × Tokens)) :=
  joined "+" (fun ts => !startsBound place ts) (g.bound place)

/-- The tokens of bounds between plus signs; one of them has to name a trait. -/
def bounds (g : Rules) (place : BoundPlace) (allowPlus : Bool) : Reader Tokens := do
  if allowPlus then
    let bs ← g.boundList place
    if bs.any fun b => b.1.isTrait then return bs.flatMap fun b => b.1.tokens ++ b.2 else failure
  else
    let b ← g.bound place
    if b.isTrait then return b.tokens else failure

/-- Further bounds of an object, each behind a plus sign. -/
def plusBounds (g : Rules) : Reader Tokens :=
  whileSees (startsOp "+") do return (← op "+") ++ (← g.bound .object).tokens

/-- Bounds up to where an item goes on, with plus signs between them, perhaps none. -/
def itemBounds (g : Rules) (isStop : Tokens → Bool) : Reader Tokens := do
  return sequence (← separated "+" isStop do return (← g.bound .parameter).tokens)

/-- One condition on a lifetime or a type. -/
def condition (g : Rules) : Reader Tokens := do
  if ← sees fun ts => startsLifetime ts && startsOp ":" (ts.drop 1) then
    let l ← Reader.lifetime
    let colon ← op ":"
    return l ++ colon ++ (← lifetimeBounds fun ts => endsCondition ts || startsOp ":" ts)
  else
    let lifetimes ← g.optionalBoundLifetimes
    let t ← g.type true
    let colon ← op ":"
    let bounds ← joined "+" endsCondition do return (← g.bound .parameter).tokens
    return lifetimes ++ t.tokens ++ colon ++ sequence bounds

/-- The conditions of an item and whether they are given; the word in front is not written without
any. -/
def whereClause (g : Rules) : Reader (Bool × Tokens) := do
  if ← seesWord "where" then
    let keyword ← word "where"
    if ← sees startsParameters then failure
    let conditions ← joined "," endsCondition g.condition
    return (true, if conditions.isEmpty then [] else keyword ++ sequence conditions)
  else return (false, [])

end Rules

end TypedSheets.Code
