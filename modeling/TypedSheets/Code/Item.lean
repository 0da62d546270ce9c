import TypedSheets.Code.Bound

/-!
# Declarations of types

The declaration of one type: a structure, an enumeration or a union. Of enumerations and unions
only that they are well formed is kept, of a structure its fields.

* `FieldSyntax` — a named field
* `Rules.namedField`, `Rules.plainField` — a field with or without a name
* `Rules.variant` — a variant of an enumeration
* `ItemBody`, `Item` — what is read
* `Rules.dataItem` — a declaration
-/

namespace TypedSheets.Code

open Reader

/-- A named field. -/
structure FieldSyntax where
  attributes : List Attribute
  /-- The name without the mark of a raw one. -/
  name : String
  type : TypeShape
  tokens : Tokens

/-- Whether the type of a field without a name declares fields of its own. -/
def startsFieldGroup (ts : Tokens) : Bool :=
  startsWord "struct" ts || (startsWord "union" ts && startsGroup .brace (ts.drop 1))

/-- The text of a name without the mark of a raw one. -/
def Token.plainName : Token → String
  | .ident n _ => n
  | t => t.text

namespace Rules

/-- A named field. One whose name is left open may declare fields of its own, which are kept as they
are written. -/
def namedField (g : Rules) : Reader FieldSyntax := do
  let attributes ← g.attributes
  let access ← visibility
  let isOpen ← seesWord "_"
  let n ← token fun t => isName t || startsWord "_" [t]
  let colon ← op ":"
  let t ←
    if isOpen && (← sees startsFieldGroup) then
      TypeSyntax.other <$> written (token isAnyName *> inGroup .brace g.fields)
    else g.type true
  return ⟨attributes, n.plainName, t.shape,
    Attribute.tokensOf attributes ++ access ++ [n] ++ colon ++ t.tokens⟩

/-- A field without a name. -/
def plainField (g : Rules) : Reader Tokens := do
  return (← g.outer) ++ (← visibility) ++ (← g.type true).tokens

/-- Fields with names, with commas between them. -/
def namedFields (g : Rules) : Reader (List (FieldSyntax × Tokens)) :=
  separated "," List.isEmpty g.namedField

/-- The tokens of fields. -/
def fieldTokens (fields : List (FieldSyntax × Tokens)) : Tokens :=
  fields.flatMap fun f => f.1.tokens ++ f.2

/-- The tokens of fields with names, up to the end. -/
def nextFields (g : Rules) : Reader Tokens := fieldTokens <$> g.namedFields

/-- A variant of an enumeration. Its visibility is not written. -/
def variant (g : Rules) : Reader Tokens := do
  let attributes ← g.outer
  let _ ← visibility
  let n ← name
  let fields ←
    if ← seesGroup .brace then grouped .brace g.nextFields
    else whenSees (startsGroup .paren) (grouped .paren (commaList g.plainField))
  let number ← whenSees (startsOp "=") do return (← op "=") ++ (← g.expr true).tokens
  return attributes ++ n ++ fields ++ number

end Rules

/-- The inside of an item. -/
inductive ItemBody where
  | fields (fs : List FieldSyntax)
  | tuple
  | unit
  | enumeration
  | union

/-- The declaration of a type. -/
structure Item where
  attributes : List Attribute
  name : String
  /-- The name as a token. -/
  token : Token
  hasParameters : Bool
  body : ItemBody
  tokens : Tokens

namespace Rules

/-- The inside of a structure. The conditions stand behind fields without names and in front of
others. -/
def structBody (g : Rules) : Reader (ItemBody × Tokens) := do
  if ← seesGroup .paren then
    let fields ← grouped .paren (commaList g.plainField)
    return (.tuple, fields ++ (← g.whereClause).2 ++ (← op ";"))
  else
    let conditions := (← g.whereClause).2
    if ← seesGroup .brace then
      let fields ← inGroup .brace g.namedFields
      return (.fields (fields.map Prod.fst), conditions ++ [.group .brace (fieldTokens fields)])
    else return (.unit, conditions ++ (← op ";"))

/-- The inside of an enumeration. -/
def enumBody (g : Rules) : Reader (ItemBody × Tokens) := do
  let conditions := (← g.whereClause).2
  return (.enumeration, conditions ++ (← grouped .brace (commaList g.variant)))

/-- The inside of a union. -/
def unionBody (g : Rules) : Reader (ItemBody × Tokens) := do
  let conditions := (← g.whereClause).2
  return (.union, conditions ++ (← grouped .brace g.nextFields))

/-- The inside of an item behind the keyword that starts it. -/
def dataBody (g : Rules) (keyword : Token) : Reader (ItemBody × Tokens) :=
  if startsWord "struct" [keyword] then g.structBody
  else if startsWord "enum" [keyword] then g.enumBody
  else g.unionBody

/-- The declaration of a type. -/
def dataItem (g : Rules) : Reader Item := do
  let attributes ← g.attributes
  let access ← visibility
  let keyword ← Reader.token fun t => startsAnyWord ["struct", "enum", "union"] [t]
  let n ← Reader.token isName
  let ps ← g.parameters
  let (body, tokens) ← g.dataBody keyword
  return ⟨attributes, n.plainName, n, ps.count != 0, body,
    Attribute.tokensOf attributes ++ access ++ [keyword, n] ++ ps.tokens ++ tokens⟩

end Rules

end TypedSheets.Code
