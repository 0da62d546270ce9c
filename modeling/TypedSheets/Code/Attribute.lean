import TypedSheets.Code.Rules
import TypedSheets.Code.Stream

/-!
# Attributes

Attributes stand in front of items, fields and expressions. One that holds a list is read entry by
entry: each entry is a path of names and whatever its reader takes behind it. Macro calls and
visibilities have such paths without arguments too.

* `NamePath`, `NamePath.read` — a path of names: its names, and whether a double colon leads
* `Attribute` — an attribute
* `Rules.attributes`, `Rules.innerAttributes` — the attributes in front, or at the start of a block
* `Rules.visibility` — who may use what is declared
* `foldEntries` — what the entries of a list make of a state
-/

namespace TypedSheets.Code

open Reader

/-- A path of names without arguments. -/
structure NamePath where
  leading : Bool
  names : List Token

/-- Whether a token is a name or a word that may stand in the path of a module. -/
def isModuleName (t : Token) : Bool :=
  isName t || startsAnyWord ["super", "self", "Self", "crate"] [t]

/-- Names of a class in front, with double colons between them. -/
def splitNames? (isMember : Token → Bool) : Tokens → Option (List Token × Tokens)
  | t :: .punct ':' true :: .punct ':' _ :: rest =>
    if isMember t then (splitNames? isMember rest).map fun (ts, rest) => (t :: ts, rest) else none
  | t :: rest => if isMember t then some ([t], rest) else none
  | [] => none

namespace NamePath

/-- Whether a path is that one name, not raw. -/
def isName (p : NamePath) (name : String) : Bool :=
  match p.leading, p.names with
  | false, [.ident n false] => n == name
  | _, _ => false

/-- The name that a path is; a raw one without its mark. -/
def name? (p : NamePath) : Option String :=
  match p.leading, p.names with
  | false, [.ident n _] => some n
  | _, _ => none

/-- Names with double colons between them. -/
def joinNames : List Token → Tokens
  | [] => []
  | [t] => [t]
  | t :: rest => t :: operator "::" ++ joinNames rest

/-- The tokens of a path. -/
def tokens (p : NamePath) : Tokens := (if p.leading then operator "::" else []) ++ joinNames p.names

/-- Takes a path of names of a class. -/
def read (isMember : Token → Bool) : Reader NamePath := do
  let colons ← optionalOp "::"
  match splitNames? isMember (← get) with
  | some (names, rest) =>
    set rest
    return ⟨!colons.isEmpty, names⟩
  | none => failure

end NamePath

/-- What stands behind the path of an attribute. -/
inductive AttributeForm where
  | bare
  | list (inner : Tokens)
  | value

/-- An attribute. -/
structure Attribute where
  path : NamePath
  form : AttributeForm
  tokens : Tokens

/-- The tokens of attributes. -/
def Attribute.tokensOf (as : List Attribute) : Tokens := as.flatMap Attribute.tokens

/-- Whether an attribute of what follows is in front. -/
def startsAttribute (ts : Tokens) : Bool := startsOp "#" ts

/-- Whether an attribute of the surrounding block is in front. -/
def startsInnerAttribute (ts : Tokens) : Bool := startsOp "#" ts && startsOp "!" (ts.drop 1)

namespace Rules

/-- What stands between the brackets of an attribute: its path, its form and its tokens. -/
def attributeBody (g : Rules) : Reader Attribute := do
  let path ← if ← seesWord "unsafe" then NamePath.mk false <$> word "unsafe"
    else NamePath.read isModuleName
  match ← get with
  | .group d inner :: rest =>
    set rest
    return ⟨path, .list inner, path.tokens ++ [.group d inner]⟩
  | ts =>
    if startsOp "=" ts then
      let eq ← op "="
      if ← sees fun ts => startsOp "#" ts && startsGroup .bracket (ts.drop 1) then failure
      let value ← g.expr true
      return ⟨path, .value, path.tokens ++ eq ++ value.tokens⟩
    else return ⟨path, .bare, path.tokens⟩

/-- An attribute of what follows. -/
def outerAttribute (g : Rules) : Reader Attribute := do
  let hash ← op "#"
  let body ← inGroup .bracket g.attributeBody
  return { body with tokens := hash ++ [.group .bracket body.tokens] }

/-- The attributes in front. -/
def attributes (g : Rules) : Reader (List Attribute) :=
  iterate (fun done => do
    if ← sees startsAttribute then return some (done ++ [← g.outerAttribute]) else return none) []

/-- The tokens of the attributes in front. -/
def outer (g : Rules) : Reader Tokens := do return Attribute.tokensOf (← g.attributes)

/-- The tokens of the attributes at the start of a block. -/
def innerAttributes (g : Rules) : Reader Tokens :=
  whileSees startsInnerAttribute do
    let marks := (← op "#") ++ (← op "!")
    return marks ++ [.group .bracket (← inGroup .bracket g.attributeBody).tokens]

/-- A block without attributes of its own. -/
def block (g : Rules) : Reader Tokens := grouped .brace g.statements

/-- A block that may start with attributes of its own. -/
def attributedBlock (g : Rules) : Reader Tokens :=
  grouped .brace do return (← g.innerAttributes) ++ (← g.statements)

/-- Whether a group restricts a visibility: to a place that one word names, or to a path. -/
def isRestriction : Tokens → Bool
  | [.ident n false] => n == "crate" || n == "self" || n == "super"
  | .ident "in" false :: _ => true
  | _ => false

/-- Who may use what is declared; perhaps nothing. -/
def visibility : Reader Tokens := do
  if ← seesWord "pub" then
    let pub ← word "pub"
    match ← get with
    | .group .paren inner :: _ =>
      if isRestriction inner then
        let place ← grouped .paren do
          return (← optionalWord "in") ++ (← NamePath.read isModuleName).tokens
        return pub ++ place
      else return pub
    | _ => return pub
  else return []

end Rules

/-- The state after the entries of a list that is not empty. An entry is a path, and `entry` takes
what belongs to it; `fault` stands for a list of another form. A comma may follow the last entry. -/
def foldEntriesWithin {ε σ : Type} (fault : ε)
    (entry : NamePath → σ → Tokens → Except ε (σ × Tokens)) :
    (fuel : Nat) → σ → Tokens → Except ε σ
  | 0, _, _ => .error fault
  | fuel + 1, state, ts =>
    match (NamePath.read isAnyName).run ts with
    | none => .error fault
    | some (path, ts) =>
      match entry path state ts with
      | .error e => .error e
      | .ok (state, []) => .ok state
      | .ok (state, .punct ',' _ :: []) => .ok state
      | .ok (state, .punct ',' _ :: t :: rest) =>
        foldEntriesWithin fault entry fuel state (t :: rest)
      | .ok _ => .error fault

/-- The state after the entries of a list that is not empty. -/
def foldEntries {ε σ : Type} (fault : ε)
    (entry : NamePath → σ → Tokens → Except ε (σ × Tokens)) (state : σ)
    (ts : Tokens) : Except ε σ :=
  foldEntriesWithin fault entry (ts.length + 1) state ts

end TypedSheets.Code
