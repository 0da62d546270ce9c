import TypedSheets.Code.Grammar
import TypedSheets.Code.SchemaExpr
import TypedSheets.Schema.Accessor

/-!
# The items of a record

The source items that a record gains: its accessors, its implementations, the checks of its
converters and its registration.

* `EmitError` — why no items come out
* `Code.accessorsItem`, `Code.recordItems`, `Code.tableItem`, `Code.converterChecks`,
  `Code.registration` — the items
* `Code.emitItems` — all of them, in order
-/

namespace TypedSheets.Code

/-- Why no items come out. -/
inductive EmitError where
  /-- A text is no type. -/
  | noType (text : String)
  /-- A name cannot be an identifier. -/
  | noIdentifier (name : String)
  /-- A vertical member has no elements to go down to. -/
  | noElementType (member : String)
  deriving DecidableEq

/-- The wording of an error, for those that have words of their own. -/
def EmitError.message? : EmitError → Option String
  | .noType _ => none
  | .noIdentifier _ => none
  | .noElementType member => some ("vertical member `" ++ member ++ "` has no element type")

/-- The tokens of a type given as text. -/
def typeOf (text : String) : Except EmitError Tokens :=
  match typeTokens? text with
  | some ts => .ok ts
  | none => .error (.noType text)

/-- The name of a member as an identifier. -/
def memberOf (name : String) : Except EmitError Tokens :=
  match memberName? name with
  | some t => .ok [t]
  | none => .error (.noIdentifier name)

/-- Makes something of each, in order; the first error wins. -/
def emitEach {α β : Type} (f : α → Except EmitError β) : List α → Except EmitError (List β)
  | [] => .ok []
  | a :: rest =>
    match f a with
    | .error e => .error e
    | .ok b =>
      match emitEach f rest with
      | .error e => .error e
      | .ok bs => .ok (b :: bs)

/-- The setter of an accessor, if it has one. -/
def setterTokens (a : Accessor) (field type : Tokens) : Except EmitError Tokens := do
  match a.setter with
  | none => return []
  | some name =>
    match a.marshaling, a.item with
    | .copyIn, some item =>
      let setter ← memberOf name
      let holes := [("field", field), ("setter", setter), ("item", ← typeOf item)]
      return template holes
          ("pub fn @setter<I: ::std::iter::IntoIterator<Item = @item>>" ++
            "(&mut self, items: I)") ++
        braces (template holes
          ("self.@field = ::std::iter::Iterator::collect(" ++
            "::std::iter::IntoIterator::into_iter(items));"))
    | _, _ =>
      let setter ← memberOf name
      let holes := [("field", field), ("setter", setter), ("type", type)]
      return template holes "pub fn @setter(&mut self, value: @type)" ++
        braces (template holes "self.@field = value;")

/-- The getter and the setter of an accessor. -/
def accessorTokens (a : Accessor) : Except EmitError Tokens := do
  let field ← memberOf a.field
  let getter ← memberOf a.getter
  let type ← typeOf a.type
  let holes := [("field", field), ("getter", getter), ("type", type)]
  let get :=
    match a.marshaling with
    | .copy =>
      template holes "pub fn @getter(&self) -> @type" ++ braces (template holes "self.@field")
    | .borrow =>
      template holes "pub fn @getter(&self) -> &@type" ++ braces (template holes "&self.@field")
    | .copyIn =>
      template holes "pub fn @getter(&self) -> &@type" ++ braces (template holes "&self.@field")
    | .share =>
      template holes "pub fn @getter(&self) -> @type" ++
        braces (template holes "::std::clone::Clone::clone(&self.@field)")
  return get ++ (← setterTokens a field type)

/-- The accessors of a record, if it has any. -/
def accessorsItem (record : Tokens) (accessors : List Accessor) :
    Except EmitError (List Tokens) := do
  if accessors.isEmpty then return []
  let methods ← emitEach accessorTokens accessors
  return [template [("record", record)] "#[allow(dead_code)] impl @record" ++
    braces methods.flatten]

/-- The three types of the converter of a member, if it has one. -/
def converterTypes (f : FieldDescriptor) :
    Except EmitError (Option (Tokens × Tokens × Tokens)) := do
  match f.converter with
  | none => return none
  | some c => return some (← typeOf c.path, ← typeOf c.input, ← typeOf c.output)

/-- The property node of a member. -/
def propertyNode (lib : Tokens) (index : Nat) (f : FieldDescriptor) : Except EmitError Tokens := do
  let member ← memberOf f.declaredName
  let holes : List (String × Tokens) :=
    [("k", lib), ("member", member), ("index", [.literal (Number.natText index ++ "usize")])]
  if f.isVertical then
    match f.element with
    | none => .error (.noElementType f.declaredName)
    | some element =>
      let holes := ("element", ← typeOf element.declaredType) :: holes
      return template holes
        ("@k::PropertyNode::<Self>::vertical::<@element>(&schema.fields[@index], " ++
          "|row| &row.@member[..], |row| &mut row.@member[..])")
  else
    let type ← typeOf f.declaredType
    let node (get set : Tokens) : Tokens :=
      template holes "@k::PropertyNode::<Self>::leaf" ++
        parens (template holes "&schema.fields[@index], |row|" ++ get ++
          template holes ", |row, value|" ++ braces (set ++
            template holes "::std::result::Result::Ok(())") ++ [Token.mark ','])
    match ← converterTypes f with
    | some (converter, input, _) =>
      let holes := ("converter", converter) :: ("input", input) :: holes
      return node
        (template holes "@k::Cell::to_value(&<@converter as @k::Converter>::revert(&row.@member))")
        (template holes
          ("row.@member = <@converter as @k::Converter>::convert(" ++
            "<@input as @k::Cell>::from_value(value)?)?;"))
    | none =>
      let holes := ("type", type) :: holes
      return node (template holes "@k::Cell::to_value(&row.@member)")
        (template holes "row.@member = <@type as @k::Cell>::from_value(value)?;")

/-- How a member is read from a row. -/
def readTokens (lib : Tokens) (f : FieldDescriptor) : Except EmitError Tokens := do
  let member ← memberOf f.declaredName
  let type ← typeOf f.declaredType
  let holes : List (String × Tokens) :=
    [("k", lib), ("member", member), ("type", type), ("name", [textLiteral f.declaredName])]
  match ← converterTypes f with
  | some (converter, input, _) =>
    let holes := ("converter", converter) :: ("input", input) :: holes
    return template holes
      ("@member: <@converter as @k::Converter>::convert(" ++
        "raw.cell_named::<@input>(&naming.wire_name(@name), naming).map_err(|e| e.at(@name))?" ++
        ").map_err(|e| e.at(@name))?")
  | none =>
    return template holes
      ("@member: raw.cell_named::<@type>(&naming.wire_name(@name), naming)" ++
        ".map_err(|e| e.at(@name))?")

/-- How a member is written to a row. -/
def writeTokens (lib : Tokens) (f : FieldDescriptor) : Except EmitError Tokens := do
  let member ← memberOf f.declaredName
  let holes : List (String × Tokens) :=
    [("k", lib), ("member", member), ("name", [textLiteral f.declaredName])]
  match ← converterTypes f with
  | some (converter, _, _) =>
    let holes := ("converter", converter) :: holes
    return template holes
      ("raw.insert(naming.wire_name(@name), @k::Cell::to_value_named(" ++
        "&<@converter as @k::Converter>::revert(&self.@member), naming));")
  | none =>
    return template holes
      ("raw.insert(naming.wire_name(@name), " ++
        "@k::Cell::to_value_named(&self.@member, naming));")

/-- The property nodes of the members from a position on. -/
def propertyNodes (lib : Tokens) : (index : Nat) → List FieldDescriptor →
    Except EmitError (List Tokens)
  | _, [] => .ok []
  | index, f :: rest =>
    match propertyNode lib index f with
    | .error e => .error e
    | .ok node =>
      match propertyNodes lib (index + 1) rest with
      | .error e => .error e
      | .ok nodes => .ok (node :: nodes)

/-- A default value for a member that no column shows. -/
def defaultTokens (name : String) : Except EmitError Tokens := do
  return template [("member", ← memberOf name)]
    "@member: ::std::default::Default::default()"

/-- The line that settles the naming in force. -/
def namingLine (holes : List (String × Tokens)) : Tokens :=
  template holes "let naming = <Self as @k::Record>::schema().effective_naming(naming);"

/-- The record implementation. -/
def recordItem (record lib : Tokens) (s : RecordSchema) : Except EmitError Tokens := do
  let nodes ← propertyNodes lib 0 s.fields
  let reads ← emitEach (readTokens lib) s.fields
  let defaults ← emitEach defaultTokens s.ignored
  let writes ← emitEach (writeTokens lib) s.fields
  let holes : List (String × Tokens) := [("k", lib), ("record", record)]
  let line (text : String) := template holes text
  let each (made : List Tokens) := made.flatMap fun ts => ts ++ [Token.mark ',']
  let schema :=
    line "fn schema() -> &'static @k::schema::RecordSchema" ++
      braces (line
          ("static SCHEMA: ::std::sync::OnceLock<@k::schema::RecordSchema> = " ++
            "::std::sync::OnceLock::new();") ++
        line "SCHEMA.get_or_init" ++ parens (line "||" ++ schemaExpr lib s))
  let propertyNodes :=
    line "fn property_nodes() -> ::std::vec::Vec<@k::PropertyNode<Self>>" ++
      braces (line "let schema = <Self as @k::Record>::schema();" ++ vecExpr nodes)
  let fromRaw :=
    line
      ("fn from_raw(raw: &@k::RawRow, naming: @k::schema::NamingStrategy) -> " ++
        "::std::result::Result<Self, @k::CellError>") ++
      braces (namingLine holes ++ line "::std::result::Result::Ok" ++
        parens (line "Self" ++ braces (each reads ++ each defaults)))
  let toRaw :=
    line "fn to_raw(&self, naming: @k::schema::NamingStrategy) -> @k::RawRow" ++
      braces (namingLine holes ++ line "let mut raw = @k::RawRow::new();" ++ writes.flatten ++
        line "raw")
  return line "impl @k::Record for @record" ++ braces (schema ++ propertyNodes ++ fromRaw ++ toRaw)

/-- The cell implementation: a record in a cell of another one. -/
def cellItem (record lib : Tokens) (name : String) : Tokens :=
  let holes : List (String × Tokens) :=
    [("k", lib), ("record", record), ("name", [textLiteral name])]
  let line (text : String) := template holes text
  let toValue :=
    line "fn to_value(&self) -> @k::Value" ++
      braces (line "@k::Cell::to_value_named(self, ::std::default::Default::default())")
  let fromValue :=
    line "fn from_value(value: @k::Value) -> ::std::result::Result<Self, @k::CellError>" ++
      braces (line
        ("<Self as @k::Cell>::from_value_named(value, " ++
          "::std::default::Default::default())"))
  let toValueNamed :=
    line "fn to_value_named(&self, naming: @k::schema::NamingStrategy) -> @k::Value" ++
      braces (line "@k::Value::Record(@k::Record::to_raw(self, naming))")
  let fromValueNamed :=
    line
      ("fn from_value_named(value: @k::Value, naming: @k::schema::NamingStrategy) -> " ++
        "::std::result::Result<Self, @k::CellError>") ++
      braces (line "match value" ++ braces (line
        ("@k::Value::Record(raw) => <Self as @k::Record>::from_raw(&raw, naming)," ++
          "@k::Value::Null => <Self as @k::Record>::from_raw(&@k::RawRow::new(), naming)," ++
          "other => ::std::result::Result::Err(@k::CellError::mismatch(@name, &other)),")))
  line "impl @k::Cell for @record" ++
    braces (toValue ++ fromValue ++ toValueNamed ++ fromValueNamed)

/-- The table implementation: the way to the id. -/
def tableItem (record lib : Tokens) (id : IdExtractor) : Except EmitError Tokens := do
  let member ← memberOf id.field
  let holes : List (String × Tokens) :=
    [("k", lib), ("record", record), ("member", member), ("id", ← typeOf id.idType)]
  let line (text : String) := template holes text
  return line "impl @k::TableRecord for @record" ++
    braces (line "type Id = @id;" ++ line "fn get_id(&self) -> Self::Id" ++
      braces (line "::std::clone::Clone::clone(&self.@member)"))

/-- The check that each converter has the types its member declares. -/
def converterChecks (lib : Tokens) (s : RecordSchema) : Except EmitError (List Tokens) := do
  let types ← emitEach converterTypes s.fields
  let checks := types.filterMap fun t => t.map fun (converter, input, output) =>
    template [("converter", converter), ("input", input), ("output", output)]
      "assert_converter::<@converter, @input, @output>();"
  if checks.isEmpty then return []
  let line (text : String) := template [("k", lib)] text
  return [line "const _: fn() = ||" ++
    braces (line "fn assert_converter<C: @k::Converter<Input = I, Output = O>, I, O>()" ++
      braces [] ++ checks.flatten) ++ [Token.mark ';']]

/-- The registration of the record. -/
def registration (record lib : Tokens) (name : String) : Tokens :=
  let line (text : String) := template [("k", lib), ("record", record)] text
  line "@k::inventory::submit!" ++
    braces (line "@k::RecordInfo" ++
      braces (line "name:" ++ [textLiteral name, Token.mark ','] ++
        line "schema: <@record as @k::Record>::schema,"))

/-- The items that a record gains, in order; `lib` is the path of the runtime library. -/
def emitItems (lib record : Tokens) (s : RecordSchema) (made : GeneratedMembers) :
    Except EmitError (List Tokens) := do
  let accessors ← accessorsItem record made.accessors
  let recordImpl ← recordItem record lib s
  let table ←
    match made.idExtractor with
    | some id => do pure [← tableItem record lib id]
    | none => pure []
  let checks ← converterChecks lib s
  return accessors ++ [recordImpl, cellItem record lib s.name] ++ table ++ checks ++
    [registration record lib s.name]

/-- The path of the runtime library that is assumed unless another is given. -/
def defaultLibrary : String := "::sheetbake"

end TypedSheets.Code
