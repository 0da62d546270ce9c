import TypedSheets.Code.Member
import TypedSheets.Code.Statement

/-!
# Items inside blocks

What a block may declare. Outside the usual forms a declaration is kept as it was written.

* `Rules.useTree` — what is brought into scope
* `Rules.implItem`, `Rules.traitItem`, … — declarations by their keyword
* `Rules.nextItem` — a declaration with its attributes
-/

namespace TypedSheets.Code

open Reader

/-- Members up to the end of their group. -/
def members (read : Reader Tokens) : Reader Tokens := whileSees (fun ts => !ts.isEmpty) read

/-- What an implementation is for. -/
structure ImplHead where
  tokens : Tokens
  /-- It has a normal form. -/
  isUsual : Bool

namespace Rules

/-- A block with attributes of its own and members. -/
def memberBlock (g : Rules) (read : Reader Tokens) : Reader Tokens :=
  grouped .brace do return (← g.innerAttributes) ++ (← members read)

/-- The new name of what is brought into scope. -/
def rename : Reader Tokens :=
  whenSees (startsWord "as") do return (← word "as") ++ (← nameOrGap)

/-- What is brought into scope, within `fuel` groups and segments. Only in front of all segments may
a path start at the root, which inside a group leaves no normal form. -/
def useTreeWithin : (fuel : Nat) → (allowRoot : Bool) → Reader Declared
  | 0, _ => failure
  | fuel + 1, allowRoot => do
    if ← seesOp "*" then return some (← op "*")
    else if ← seesGroup .brace then
      let trees ← inGroup .brace (separated "," List.isEmpty do
        let root ← if allowRoot then optionalOp "::" else pure []
        let tree ← useTreeWithin fuel (allowRoot && root.isEmpty)
        return if root.isEmpty then tree else none)
      match trees.mapM fun t => t.1.map fun tokens => (tokens, t.2) with
      | some trees => return some [.group .brace (sequence trees)]
      | none => return none
    else
      let n ← token fun t => isName t || isPlaceWord t
      if ← seesOp "::" then
        let colons ← op "::"
        return (← useTreeWithin fuel false).map fun rest => n :: colons ++ rest
      else return some (n :: (← rename))

/-- What is brought into scope. -/
def useTree (allowRoot : Bool) : Reader Declared := do
  let size := (Token.textOf (← get)).length
  useTreeWithin (size + 1) allowRoot

/-- The import of names. -/
def useItem : Reader Declared := do
  let start := (← visibility) ++ (← word "use")
  let colons ← optionalOp "::"
  let tree ← useTree colons.isEmpty
  let semicolon ← op ";"
  return tree.map fun tokens => start ++ colons ++ tokens ++ semicolon

/-- A function. One without a body is kept as it was written. -/
def fnItem (g : Rules) : Reader Declared := do
  let start := (← visibility) ++ (← g.signature false)
  if ← seesOp ";" then
    let _ ← op ";"
    return none
  else return some (start ++ (← g.body))

/-- The import of a library. -/
def libraryItem : Reader Tokens := do
  let start := (← visibility) ++ (← word "extern") ++ (← word "crate")
  let n ← if ← seesWord "self" then word "self" else name
  return start ++ n ++ (← rename) ++ (← op ";")

/-- A block of foreign declarations. -/
def foreignBlock (g : Rules) : Reader Tokens := do
  return (← optionalWord "unsafe") ++ (← convention) ++ (← g.memberBlock g.foreignMember)

/-- A variable. One without a type or a value is kept as it was written. -/
def staticItem (g : Rules) : Reader Declared := do
  let head := (← visibility) ++ (← word "static") ++ (← optionalWord "mut") ++ (← name)
  let annotation ← whenSees (fun ts => !startsOp "=" ts) do
    return (← op ":") ++ (← g.type true).tokens
  let value ← whenSees (fun ts => annotation.isEmpty || !startsOp ";" ts) do
    return (← op "=") ++ (← g.expr true).tokens
  let semicolon ← op ";"
  if annotation.isEmpty || value.isEmpty then return none
  else return some (head ++ annotation ++ value ++ semicolon)

/-- A module. -/
def moduleItem (g : Rules) : Reader Tokens := do
  let start := (← visibility) ++ (← optionalWord "unsafe") ++ (← word "mod")
  let n ← if ← seesWord "try" then word "try" else name
  if ← seesOp ";" then return start ++ n ++ (← op ";")
  else return start ++ n ++ (← g.memberBlock g.item)

/-- A type by its name. One with bounds or without a definition is kept as it was written. -/
def aliasItem (g : Rules) : Reader Declared := do
  let access ← visibility
  let t ← g.typeItem .before
  match t.bounds, t.definition with
  | none, some definition =>
    let conditions := t.conditions.dropLast
    let behind := t.conditions.drop conditions.length
    return some (access ++ t.head ++ conditions ++ definition ++ behind)
  | _, _ => return none

/-- A trait: with members, or as the name of bounds. -/
def traitItem (g : Rules) : Reader Tokens := do
  let access ← visibility
  let marks := (← optionalWord "unsafe") ++ (← optionalWord "auto")
  let start := access ++ marks
  let head := (← word "trait") ++ (← name) ++ (← g.parameters).tokens
  if marks.isEmpty && (← seesOp "=") then
    let eq ← op "="
    let bounds ← g.itemBounds fun ts => startsWord "where" ts || startsOp ";" ts
    return start ++ head ++ eq ++ bounds ++ (← g.whereClause).2 ++ (← op ";")
  else
    let bounds ← whenSees (startsOp ":") do
      let _ ← op ":"
      g.itemBounds fun ts => startsWord "where" ts || startsGroup .brace ts
    let conditions := (← g.whereClause).2
    return start ++ head ++ colonAnd bounds ++ conditions ++ (← g.memberBlock g.traitMember)

/-- Whether an implementation is constant. -/
def startsConstImpl (ts : Tokens) : Bool :=
  startsWord "const" ts || (startsOp "?" ts && startsWord "const" (ts.drop 1))

/-- What an implementation is for: a type, or a trait and a type. -/
def implHead (g : Rules) : Reader ImplHead := do
  let polarity ← whenSees (fun ts => startsOp "!" ts && !startsGroup .brace (ts.drop 1)) (op "!")
  let first ← g.type true
  if ← seesWord "for" then
    let keyword ← word "for"
    let isUsual := match first.form with | .path _ => true | _ => false
    return ⟨polarity ++ first.tokens ++ keyword ++ (← g.type true).tokens, isUsual⟩
  else if polarity.isEmpty then return ⟨first.tokens, true⟩
  else failure

/-- An implementation. One with a visibility, a constant one, and one whose trait is no path are
kept as they were written. -/
def implItem (g : Rules) : Reader Declared := do
  let access ← visibility
  let start := (← optionalWord "default") ++ (← optionalWord "unsafe") ++ (← word "impl")
  let ps ← whenSees startsParameters (ParametersSyntax.tokens <$> g.parameters)
  let mark ← whenSees startsConstImpl do return (← optionalOp "?") ++ (← word "const")
  let head ← g.implHead
  let conditions := (← g.whereClause).2
  let body ← g.memberBlock g.implMember
  if access.isEmpty && mark.isEmpty && head.isUsual then
    return some (start ++ ps ++ head.tokens ++ conditions ++ body)
  else return none

/-- The definition of a macro by its keyword, which is kept as it was written. -/
def keywordCall : Reader Declared := do
  let _ ← visibility
  let _ ← word "macro"
  let _ ← name
  let isGroup (d : Delimiter) (t : Token) : Bool := startsGroup d [t]
  let _ ← whenSees (startsGroup .paren) do return [← token (isGroup .paren)]
  let _ ← token (isGroup .brace)
  return none

/-- The call of a macro that declares something, perhaps by name. -/
def callItem : Reader Tokens := do
  let path ← NamePath.read isModuleName
  let bang ← op "!"
  let n ← whenSees startsAnyName do
    if ← seesWord "try" then word "try" else name
  let group ← anyGroup
  let call := path.tokens ++ bang ++ n ++ group
  if endsWithBrace call then return call else return call ++ (← op ";")

/-- A declaration behind its attributes, given the tokens behind its visibility. -/
def itemBody (g : Rules) (hasAccess : Bool) (ts : Tokens) : Reader Declared :=
  let second := ts.drop 1
  if startsSignatureWords false ts then g.fnItem
  else if startsWord "extern" ts then
    if startsWord "crate" second then some <$> libraryItem
    else if hasAccess then failure
    else some <$> g.foreignBlock
  else if startsWord "use" ts then useItem
  else if startsWord "static" ts then g.staticItem
  else if startsWord "const" ts then do
    let access ← visibility
    return (← g.constItem).map fun tokens => access ++ tokens
  else if startsWord "unsafe" ts then
    if startsAnyWord ["trait", "auto"] second then some <$> g.traitItem
    else if startsWord "impl" second then g.implItem
    else if startsWord "mod" second then some <$> g.moduleItem
    else if startsWord "extern" second && !hasAccess then some <$> g.foreignBlock
    else failure
  else if startsWord "mod" ts then some <$> g.moduleItem
  else if startsWord "type" ts then g.aliasItem
  else if startsAnyWord ["struct", "enum"] ts || (startsWord "union" ts && startsName second) then
    (fun i => some i.tokens) <$> g.dataItem
  else if startsWord "trait" ts || (startsWord "auto" ts && startsWord "trait" second) then
    some <$> g.traitItem
  else if startsWord "impl" ts || (startsWord "default" ts && !startsOp "!" second) then g.implItem
  else if startsWord "macro" ts then keywordCall
  else if !hasAccess && startsCallPath ts then some <$> callItem
  else failure

/-- A declaration with its attributes. -/
def nextItem (g : Rules) : Reader Tokens :=
  declared do
    let attributes ← g.outer
    let start ← get
    let access ← visibility
    let ts ← get
    set start
    return (← g.itemBody (!access.isEmpty) ts).map fun tokens => attributes ++ tokens

end Rules

end TypedSheets.Code
