import TypedSheets.Code.Item
import TypedSheets.Code.Signature

/-!
# Members of traits, implementations and foreign blocks

A member outside the usual forms is kept as it was written.

* `Declared` — tokens in normal form, or none where what was written is kept
* `Rules.memberCall`, `Rules.constItem`, `Rules.typeItem` — parts that items and members share
* `Rules.traitMember`, `Rules.implMember`, `Rules.foreignMember` — members
-/

namespace TypedSheets.Code

open Reader

/-- What was declared in normal form; nothing where it is kept as it was written. -/
abbrev Declared := Option Tokens

/-- Where the conditions of a type stand: before its definition, behind it, or either. -/
inductive ConditionsPlace where
  | before
  | behind
  | either
  deriving DecidableEq

/-- The declaration of a type by its name. -/
structure NamedTypeSyntax where
  /-- The keyword, the name and the parameters. -/
  head : Tokens
  /-- The bounds, without their colon. -/
  bounds : Option Tokens
  definition : Option Tokens
  /-- The conditions and the semicolon. -/
  conditions : Tokens

/-- Whether the call of a macro may start here. -/
def startsCallPath (ts : Tokens) : Bool :=
  startsName ts || startsAnyWord ["self", "super", "crate"] ts || startsOp "::" ts

namespace Rules

/-- A reader of members that keeps what has no normal form as it was written. -/
def declared (read : Reader Declared) : Reader Tokens := do
  let start ← get
  match ← read with
  | some tokens => return tokens
  | none => since start

/-- The call of a macro as a member. Without braces it needs a semicolon. -/
def memberCall : Reader Tokens := do
  let call := (← NamePath.read isModuleName).tokens ++ (← bangGroup)
  if endsWithBrace call then return call else return call ++ (← op ";")

/-- The body of a function. -/
def body (g : Rules) : Reader Tokens := g.attributedBlock

/-- The name of a constant with its parameters and its type. Whether it takes no parameters. -/
def constHead (g : Rules) : Reader (Tokens × Bool) := do
  let start := (← word "const") ++ (← nameOrGap)
  let ps ← g.parameters
  let colon ← op ":"
  let t ← g.type true
  return (start ++ ps.tokens ++ colon ++ t.tokens, !ps.isGiven)

/-- A constant. One with parameters or without a value is kept as it was written. -/
def constItem (g : Rules) : Reader Declared := do
  let (head, isPlain) ← g.constHead
  let value ← whenSees (startsOp "=") do return (← op "=") ++ (← g.expr true).tokens
  let (isConditional, _) ← g.whereClause
  let semicolon ← op ";"
  if isPlain && !isConditional && !value.isEmpty then return some (head ++ value ++ semicolon)
  else return none

/-- A type by its name, with bounds and a definition. -/
def typeItem (g : Rules) (place : ConditionsPlace) : Reader NamedTypeSyntax := do
  let head := (← word "type") ++ (← name) ++ (← g.parameters).tokens
  let isStop (ts : Tokens) : Bool := startsWord "where" ts || startsOp "=" ts || startsOp ";" ts
  let bounds ← if ← seesOp ":" then some <$> (op ":" *> g.itemBounds isStop) else pure none
  let (isGiven, early) ← if place = .behind then pure (false, []) else g.whereClause
  let definition ← if ← seesOp "=" then pure (some ((← op "=") ++ (← g.type true).tokens))
    else pure none
  let late ← if place = .before || isGiven then pure [] else Prod.snd <$> g.whereClause
  return ⟨head, bounds, definition, early ++ late ++ (← op ";")⟩

/-- A member of a trait behind its attributes. -/
def traitMemberBody (g : Rules) : Reader Tokens := do
  if ← sees (startsSignatureWords false) then
    let start ← g.signature false
    if ← seesGroup .brace then return start ++ (← g.body) else return start ++ (← op ";")
  else if ← seesWord "const" then
    let (head, _) ← g.constHead
    let value ← whenSees (startsOp "=") do return (← op "=") ++ (← g.expr true).tokens
    return head ++ value ++ (← g.whereClause).2 ++ (← op ";")
  else if ← seesWord "type" then
    let t ← g.typeItem .behind
    return t.head ++ colonAnd (t.bounds.getD []) ++ t.definition.getD [] ++ t.conditions
  else if ← sees startsCallPath then memberCall
  else failure

/-- A member of a trait. One with a visibility or a default mark is kept as it was written. -/
def traitMember (g : Rules) : Reader Tokens :=
  declared do
    let attributes ← g.outer
    let marks := (← visibility) ++ (← optionalWord "default")
    if !marks.isEmpty && !(← sees (startsSignatureWords false)) &&
        !(← sees (startsAnyWord ["const", "type"])) then failure
    let member ← g.traitMemberBody
    if marks.isEmpty then return some (attributes ++ member) else return none

/-- A member of an implementation. A function without a body is kept as it was written, and so is a
type with bounds or without a definition. -/
def implMember (g : Rules) : Reader Tokens :=
  declared do
    let attributes ← g.outer
    let access ← visibility
    let isDefault (ts : Tokens) : Bool := startsWord "default" ts && !startsOp "!" (ts.drop 1)
    let marks := access ++ (← whenSees isDefault (word "default"))
    if ← sees (startsSignatureWords false) then
      let start ← g.signature false
      if ← seesOp ";" then
        let _ ← op ";"
        return none
      else return some (attributes ++ marks ++ start ++ (← g.body))
    else if ← seesWord "const" then
      return (← g.constItem).map fun c => attributes ++ marks ++ c
    else if ← seesWord "type" then
      let t ← g.typeItem .behind
      match t.bounds, t.definition with
      | none, some definition =>
        return some (attributes ++ marks ++ t.head ++ definition ++ t.conditions)
      | _, _ => return none
    else if marks.isEmpty && (← sees startsCallPath) then return some (attributes ++ (← memberCall))
    else failure

/-- A variable of a foreign block. One that is marked as safe or unsafe or has a value is kept as it
was written. -/
def foreignStatic (g : Rules) : Reader Declared := do
  let safety ← if ← seesWord "safe" then word "safe" else optionalWord "unsafe"
  let head := (← word "static") ++ (← optionalWord "mut") ++ (← name) ++ (← op ":")
  let t ← g.type true
  let value ← whenSees (startsOp "=") do return (← op "=") ++ (← g.expr true).tokens
  let semicolon ← op ";"
  if safety.isEmpty && value.isEmpty then return some (head ++ t.tokens ++ semicolon)
  else return none

/-- Whether a variable of a foreign block starts here. -/
def startsForeignStatic (ts : Tokens) : Bool :=
  startsWord "static" ts ||
    (startsAnyWord ["unsafe", "safe"] ts && startsWord "static" (ts.drop 1))

/-- A function of a foreign block. One that is marked as safe or has a body is kept as it was
written. -/
def foreignFn (g : Rules) : Reader Declared := do
  let isSafe ← sees fun ts => !startsSignatureWords false ts
  let start ← g.signature true
  if ← seesGroup .brace then
    let _ ← g.body
    return none
  else
    let semicolon ← op ";"
    return if isSafe then none else some (start ++ semicolon)

/-- A member of a foreign block. -/
def foreignMember (g : Rules) : Reader Tokens :=
  declared do
    let attributes ← g.outer
    let access ← visibility
    let complete (d : Declared) : Declared := d.map fun tokens => attributes ++ access ++ tokens
    if ← sees (startsSignatureWords true) then return complete (← g.foreignFn)
    else if ← sees startsForeignStatic then return complete (← g.foreignStatic)
    else if ← seesWord "type" then
      let t ← g.typeItem .either
      match t.bounds, t.definition with
      | none, none => return complete (some (t.head ++ t.conditions))
      | _, _ => return none
    else if access.isEmpty && (← sees startsCallPath) then return complete (some (← memberCall))
    else failure

end Rules

end TypedSheets.Code
