import TypedSheets.Code.Grammar
import TypedSheets.Schema.Declaration

/-!
# Declarations as source text

A record is declared by an item whose attributes say what is meant: `record` on the item and `data`
on its fields. An item to which nothing can be attached gives a closed declaration instead of an
error.

* `DeclarationError` — why an item gives no declaration
* `Item.declaration` — the declaration of an item
* `parseDeclaration` — the item and the declaration of a text
-/

namespace TypedSheets.Code

/-- Why a text gives no declaration. -/
inductive DeclarationError where
  /-- The text does not follow the grammar. -/
  | grammar
  /-- A record option has another name. -/
  | recordOption
  /-- A path stands where the name of a member is due. -/
  | memberName
  /-- The naming strategy is unknown. -/
  | naming (e : Naming.UnknownName)
  /-- A member option has another name. -/
  | memberOption
  /-- A part of a converter has another name. -/
  | converterPart
  /-- A part of a converter is missing. -/
  | converterIncomplete
  deriving DecidableEq

/-- The wording of an error, for those that have words of their own. -/
def DeclarationError.message? : DeclarationError → Option String
  | .grammar => none
  | .recordOption =>
    some "expected `table`, `mutable`, `naming = \"..\"` or `user_impl(..)`"
  | .memberName => some "expected a member name"
  | .naming e => some e.message
  | .memberOption => some "expected `id`, `mutable`, `vertical` or `convert(..)`"
  | .converterPart => some "expected `with`, `input` or `output`"
  | .converterIncomplete => some "converter needs `with = Path, input = Type, output = Type`"

/-- Takes what stands behind an equals sign. -/
def valueOf {α : Type} (read : Reader α) (ts : Tokens) :
    Except DeclarationError (α × Tokens) :=
  match ts with
  | .punct '=' _ :: rest =>
    match read.run rest with
    | some r => .ok r
    | none => .error .grammar
  | _ => .error .grammar

/-- Takes a text literal. -/
def textValue : Reader String := do
  let t ← Reader.token fun t => (stringValue? t).isSome
  return (stringValue? t).getD ""

/-- Takes the entries in parentheses. -/
def nested {σ : Type} (entry : NamePath → σ → Tokens →
    Except DeclarationError (σ × Tokens)) (state : σ) (ts : Tokens) :
    Except DeclarationError (σ × Tokens) :=
  match ts with
  | .group .paren inner :: rest =>
    match foldEntries .grammar entry state inner with
    | .ok state => .ok (state, rest)
    | .error e => .error e
  | _ => .error .grammar

/-- One name of a member that is written by hand. -/
def userImplEntry (p : NamePath) (names : List String) (ts : Tokens) :
    Except DeclarationError (List String × Tokens) :=
  match p.name? with
  | some n => .ok (names ++ [n], ts)
  | none => .error .memberName

/-- One option of a record. -/
def recordEntry (p : NamePath) (d : RecordDecl) (ts : Tokens) :
    Except DeclarationError (RecordDecl × Tokens) :=
  if p.isName "table" then .ok ({ d with isTable := true }, ts)
  else if p.isName "mutable" then .ok ({ d with isMutable := true }, ts)
  else if p.isName "naming" then
    match valueOf textValue ts with
    | .error e => .error e
    | .ok (text, rest) =>
      match Naming.parse text with
      | .ok naming => .ok ({ d with naming := some naming }, rest)
      | .error e => .error (.naming e)
  else if p.isName "user_impl" then
    match nested userImplEntry d.userImpls ts with
    | .ok (names, rest) => .ok ({ d with userImpls := names }, rest)
    | .error e => .error e
  else .error .recordOption

/-- The parts of a converter that are given so far. -/
structure ConverterParts where
  path : Option String
  input : Option TypeShape
  output : Option TypeShape

/-- The text of a path without spaces. -/
def pathText (p : PathSyntax) : String :=
  String.ofList ((Token.textOf p.tokens).toList.filter (· != ' '))

/-- One part of a converter. -/
def converterEntry (g : Rules) (p : NamePath) (parts : ConverterParts) (ts : Tokens) :
    Except DeclarationError (ConverterParts × Tokens) :=
  if p.isName "with" then
    match valueOf (g.path false) ts with
    | .ok (path, rest) => .ok ({ parts with path := some (pathText path) }, rest)
    | .error e => .error e
  else if p.isName "input" then
    match valueOf (g.type true) ts with
    | .ok (t, rest) => .ok ({ parts with input := some t.shape }, rest)
    | .error e => .error e
  else if p.isName "output" then
    match valueOf (g.type true) ts with
    | .ok (t, rest) => .ok ({ parts with output := some t.shape }, rest)
    | .error e => .error e
  else .error .converterPart

/-- One option of a data member. -/
def memberEntry (g : Rules) (p : NamePath) (m : MemberDecl) (ts : Tokens) :
    Except DeclarationError (MemberDecl × Tokens) :=
  if p.isName "id" then .ok ({ m with isId := true }, ts)
  else if p.isName "mutable" then .ok ({ m with isMutable := true }, ts)
  else if p.isName "vertical" then .ok ({ m with isVertical := true }, ts)
  else if p.isName "convert" then
    match nested (converterEntry g) ⟨none, none, none⟩ ts with
    | .error e => .error e
    | .ok (⟨some path, some input, some output⟩, rest) =>
      .ok ({ m with converter := some ⟨path, input, output⟩ }, rest)
    | .ok _ => .error .converterIncomplete
  else .error .memberOption

/-- The state after the entries of an attribute; an empty list has none. -/
def attributeEntries {σ : Type} (entry : NamePath → σ → Tokens →
    Except DeclarationError (σ × Tokens)) (state : σ) (form : AttributeForm) :
    Except DeclarationError σ :=
  match form with
  | .list [] => .ok state
  | .list inner => foldEntries .grammar entry state inner
  | _ => .error .grammar

/-- The declaration of a field. Its first `data` attribute counts. -/
def FieldSyntax.declaration (g : Rules) (f : FieldSyntax) :
    Except DeclarationError MemberDecl :=
  match f.attributes.find? fun a => a.path.isName "data" with
  | none => .ok (.ignored f.name f.type)
  | some ⟨_, .bare, _⟩ => .ok (.data f.name f.type)
  | some ⟨_, form, _⟩ => attributeEntries (memberEntry g) (.data f.name f.type) form

/-- The declaration with the options of the `record` attributes. -/
def recordOptions : RecordDecl → List Attribute → Except DeclarationError RecordDecl
  | d, [] => .ok d
  | d, a :: rest =>
    if a.path.isName "record" then
      match attributeEntries recordEntry d a.form with
      | .ok d => recordOptions d rest
      | .error e => .error e
    else recordOptions d rest

/-- The declarations of fields, in order; the first error wins. -/
def fieldDeclarations (g : Rules) :
    List FieldSyntax → Except DeclarationError (List MemberDecl)
  | [] => .ok []
  | f :: rest =>
    match f.declaration g with
    | .error e => .error e
    | .ok m =>
      match fieldDeclarations g rest with
      | .error e => .error e
      | .ok ms => .ok (m :: ms)

/-- The declaration of an item. -/
def Item.declaration (g : Rules) (i : Item) : Except DeclarationError RecordDecl :=
  match recordOptions (.named i.name) i.attributes with
  | .error e => .error e
  | .ok d =>
    let closed (reason : String) : Except DeclarationError RecordDecl :=
      .ok { d with closedReason := some reason }
    if i.hasParameters then closed "records cannot have generic parameters"
    else
      match i.body with
      | .fields fs =>
        match fieldDeclarations g fs with
        | .ok ms => .ok { d with members := ms }
        | .error e => .error e
      | .tuple => closed "tuple structs have no named members"
      | .unit => closed "unit structs have no members"
      | .enumeration => closed "only structs can be records, found an enum"
      | .union => closed "only structs can be records, found a union"

/-- The item of a text and its declaration. -/
def parseDeclaration (text : String) : Except DeclarationError (Item × RecordDecl) :=
  match item? text with
  | none => .error .grammar
  | some i =>
    match i.declaration (rulesFor text) with
    | .ok d => .ok (i, d)
    | .error e => .error e

end TypedSheets.Code
