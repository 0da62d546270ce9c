import TypedSheets.Code.Attribute

/-!
# Paths

Names with arguments, in types and in expressions. Among the arguments lifetimes are written first.

* `lifetimesFirst` — the order in which arguments and parameters are written
* `Rules.angleArgs`, `Rules.parenArgs` — arguments in brackets
* `Rules.path`, `Rules.qualifiedPath`, `Rules.anyPath` — paths
-/

namespace TypedSheets.Code

open Reader

/-- Entries with the lifetimes among them in front. Where the last lifetime has no comma behind it,
one divides it from the rest. -/
def lifetimesFirst {α : Type} (isLifetime : α → Bool) (tokens : α → Tokens)
    (xs : List (α × Tokens)) : Tokens :=
  let (front, back) := xs.partition fun x => isLifetime x.1
  let write (ys : List (α × Tokens)) : Tokens := ys.flatMap fun y => tokens y.1 ++ y.2
  let divider :=
    if !back.isEmpty && front.getLast?.any (fun x => x.2.isEmpty) then operator "," else []
  write front ++ divider ++ write back

/-- Whether arguments in angle brackets follow a name. In expressions a double colon has to stand in
front of them. -/
def startsArgs (inExpr : Bool) (ts : Tokens) : Bool :=
  (!inExpr && startsOp "<" ts && !startsOp "<=" ts && !startsOp "<<=" ts) ||
    (startsOp "::" ts && startsOp "<" (ts.drop 2))

/-- Whether arguments in parentheses follow a name. -/
def startsParenArgs (ts : Tokens) : Bool :=
  startsGroup .paren ts || (startsOp "::" ts && startsGroup .paren (ts.drop 2))

/-- The words that are a segment without arguments. -/
def isPlaceWord (t : Token) : Bool := startsAnyWord ["super", "self", "crate", "try"] [t]

/-- Whether a token may be a segment of a path. -/
def isSegment (t : Token) : Bool := isName t || isPlaceWord t || startsWord "Self" [t]

/-- Whether the tokens start with a name that may be the first of a path, without a colon or a type
in front. -/
def startsPathName (ts : Tokens) : Bool := ts.head?.any isModuleName

/-- Whether a path may start here. -/
def startsPath (ts : Tokens) : Bool := startsPathName ts || startsOp "::" ts || startsOp "<" ts

/-- One argument in angle brackets. -/
structure ArgSyntax where
  isLifetime : Bool
  /-- The type that the argument is, if it is one. -/
  type : Option TypeShape
  tokens : Tokens

namespace Rules

/-- A constant as an argument: a literal or a block. -/
def constArg (g : Rules) : Reader Tokens := do
  if ← sees startsSignedLiteral then signedLiteral else g.attributedBlock

/-- Whether a constant stands there as an argument. -/
def startsConstArg (ts : Tokens) : Bool := startsSignedLiteral ts || startsGroup .brace ts

/-- The tokens of bounds up to a comma or a closing bracket, perhaps none. -/
def argBounds (g : Rules) : Reader Tokens := do
  let isStop (ts : Tokens) : Bool := startsOp "," ts || startsOp ">" ts
  return sequence (← joined "+" isStop do return (← g.bound .parameter).tokens)

/-- One argument: a lifetime, a constant, a type, or what an associated type is or satisfies. -/
def genericArg (g : Rules) : Reader ArgSyntax := do
  if ← sees fun ts => startsLifetime ts && !startsOp "+" (ts.drop 1) then
    return ⟨true, none, ← Reader.lifetime⟩
  else if ← sees startsConstArg then
    return ⟨false, none, ← g.constArg⟩
  else
    let t ← g.type true
    let isAssociated := match t.form with | .path p => p.isAssociated | _ => false
    if isAssociated && (← seesOp "=") then
      let eq ← op "="
      let value ← if ← sees startsConstArg then g.constArg
        else TypeSyntax.tokens <$> g.type true
      return ⟨false, none, t.tokens ++ eq ++ value⟩
    else if isAssociated && (← seesOp ":") then
      let colon ← op ":"
      return ⟨false, none, t.tokens ++ colon ++ (← g.argBounds)⟩
    else return ⟨false, some t.shape, t.tokens⟩

/-- Arguments in angle brackets, with the double colon in front of them if there is one. -/
def angleArgs (g : Rules) : Reader ArgsSyntax := do
  let colons ← optionalOp "::"
  let lt ← op "<"
  let args ← separated "," (startsOp ">") g.genericArg
  let gt ← op ">"
  return ⟨true, args.isEmpty, args.filterMap fun a => a.1.type,
    colons ++ lt ++ lifetimesFirst ArgSyntax.isLifetime ArgSyntax.tokens args ++ gt⟩

/-- The result of a function, if it is given. -/
def result (g : Rules) (allowPlus : Bool) : Reader Tokens :=
  whenSees (startsOp "->") do return (← op "->") ++ (← g.type allowPlus).tokens

/-- Arguments in parentheses and a result. Their double colon is not written. -/
def parenArgs (g : Rules) : Reader Tokens := do
  let _ ← optionalOp "::"
  let args ← grouped .paren (commaList (TypeSyntax.tokens <$> g.type true))
  return args ++ (← g.result false)

/-- A segment of a path with its arguments. -/
def segment (g : Rules) (inExpr : Bool) : Reader (Token × ArgsSyntax) := do
  let t ← token isSegment
  if !isPlaceWord t && (← sees (startsArgs inExpr)) then return (t, ← g.angleArgs)
  else return (t, .absent)

/-- The further segments of a path. -/
def pathRest (g : Rules) (inExpr : Bool) : PathSyntax → Reader PathSyntax :=
  iterate fun p => do
    if ← sees fun ts => startsOp "::" ts && !startsGroup .paren (ts.drop 2) then
      let colons ← op "::"
      let (t, args) ← g.segment inExpr
      return some (p.push colons t args)
    else return none

/-- A path. -/
def path (g : Rules) (inExpr : Bool) : Reader PathSyntax := do
  let colons ← optionalOp "::"
  let (t, args) ← g.segment inExpr
  g.pathRest inExpr ⟨!colons.isEmpty, false, [t.text], !args.isGiven, colons ++ [t], args⟩

/-- A path behind a type in angle brackets. -/
def qualifiedPath (g : Rules) (inExpr : Bool) : Reader PathSyntax := do
  let lt ← op "<"
  let self ← g.type true
  let trait ← whenSees (startsWord "as") do
    return (← word "as") ++ (← g.path false).tokens
  let gt ← op ">"
  let colons ← op "::"
  let (t, args) ← g.segment inExpr
  iterate (fun p => do
    if ← seesOp "::" then
      let colons ← op "::"
      let (t, args) ← g.segment inExpr
      return some (p.push colons t args)
    else return none)
    ⟨false, true, [t.text], !args.isGiven, lt ++ self.tokens ++ trait ++ gt ++ colons ++ [t],
      args⟩

/-- A path that may start with a type in angle brackets. -/
def anyPath (g : Rules) (inExpr : Bool) : Reader PathSyntax := do
  if ← seesOp "<" then g.qualifiedPath inExpr else g.path inExpr

/-- Whether the call of a macro goes on behind a path. -/
def startsBang (ts : Tokens) : Bool := startsOp "!" ts && !startsOp "!=" ts

/-- What stands behind the name of a macro: the bang and a group, kept as it is written. -/
def bangGroup : Reader Tokens := do return (← op "!") ++ (← anyGroup)

end Rules

end TypedSheets.Code
