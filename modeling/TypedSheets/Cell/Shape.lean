import TypedSheets.Cell.Type
import TypedSheets.Schema.Extract

/-!
# The declared types of cells

Every cell type has a written form, and a declared type that has the form of a cell type is read as
one. A record type has the schema of its declaration.

* `CellType.shape` — the declared type of a cell type
* `CellType.ofShape?` — the cell type of a declared type
* `RecordType.decl`, `RecordType.schema` — a record type as it is declared, and its schema
-/

namespace TypedSheets

/-- A path of one segment. -/
def TypeShape.ident (name : String) (args : List TypeShape) : TypeShape := .path [name] args

/-- The declared type of plain data. -/
def DataType.shape : DataType → TypeShape
  | .scalar s => .ident s.name []
  | .choice name _ => .ident name []
  | .option d => .ident "Option" [d.shape]
  | .list d => .ident "Vec" [d.shape]
  | .pair a b => .tuple [a.shape, b.shape]

/-- The declared type of what a converter reads. -/
def InputType.shape : InputType → TypeShape
  | .scalar s => .ident s.name []
  | .option i => .ident "Option" [i.shape]

/-- The declared type of a sequence of that form. -/
def SequenceForm.shape (form : SequenceForm) (elem : TypeShape) : TypeShape :=
  match form with
  | .list => .ident "Vec" [elem]
  | .boxedSlice => .ident "Box" [.slice elem]
  | .sharedSlice => .ident "Arc" [.slice elem]
  | .sharedList => .ident "Arc" [.ident "Vec" [elem]]
  | .queue => .ident "VecDeque" [elem]
  | .stack => .ident "Stack" [elem]

/-- The name of a set of that form. -/
def KeyedForm.setName : KeyedForm → String
  | .hashed => "HashSet"
  | .sorted => "BTreeSet"

/-- The name of a map of that form. -/
def KeyedForm.mapName : KeyedForm → String
  | .hashed => "HashMap"
  | .sorted => "BTreeMap"

/-- The declared type of rows of a record type. -/
def RowsForm.shape (form : RowsForm) (record : String) : TypeShape :=
  match form with
  | .list => .ident "Vec" [.ident record []]
  | .boxedSlice => .ident "Box" [.slice (.ident record [])]
  | .array length => .arrayOf (.ident record []) length

/-- The declared type of a cell type. -/
def CellType.shape : CellType → TypeShape
  | .scalar s => .ident s.name []
  | .option t => .ident "Option" [t.shape]
  | .sequence form t => form.shape t.shape
  | .array t length => .arrayOf t.shape length
  | .set form t => .ident form.setName [t.shape]
  | .map form false k v => .ident form.mapName [k.shape, v.shape]
  | .map form true k v => .ident "Arc" [.ident form.mapName [k.shape, v.shape]]
  | .sheetRef target => .ident "SheetRef" [.ident target []]
  | .assetRef => .ident "AssetRef" []
  | .record head _ => .ident head.name []
  | .any => .ident "Value" []

/-- The scalar type of that name. -/
def ScalarType.ofName? (name : String) : Option ScalarType :=
  if name == "bool" then some .bool
  else if name == "f32" then some .single
  else if name == "f64" then some .double
  else if name == "String" then some .text
  else (IntKind.ofName? name).map .int

/-- The form of a map of that name. -/
def KeyedForm.ofMapName? (name : String) : Option KeyedForm :=
  if name == "HashMap" then some .hashed
  else if name == "BTreeMap" then some .sorted
  else none

/-- The cell type with one argument of that name. -/
def CellType.wrapper? (name : String) : Option (CellType → CellType) :=
  if name == "Option" then some .option
  else if name == "Vec" then some (.sequence .list)
  else if name == "VecDeque" then some (.sequence .queue)
  else if name == "Stack" then some (.sequence .stack)
  else if name == "HashSet" then some (.set .hashed)
  else if name == "BTreeSet" then some (.set .sorted)
  else none

/-- The cell type of that name: a scalar, an asset, a dynamic value or a known record. -/
def CellType.ofName? (records : String → Option RecordType) (name : String) : Option CellType :=
  match ScalarType.ofName? name with
  | some s => some (.scalar s)
  | none =>
    if name == "AssetRef" then some .assetRef
    else if name == "Value" then some .any
    else (records name).map RecordType.cell

/-- The cell type of a declared type; `records` knows the record types by name. -/
def CellType.ofShape? (records : String → Option RecordType) : TypeShape → Option CellType
  | .path segments [] => segments.getLast?.bind (ofName? records)
  | .path segments [a] =>
    match segments.getLast? with
    | none => none
    | some name =>
      if name == "SheetRef" then some (.sheetRef (a.ident?.getD a.text))
      else if name == "Box" then
        match a with
        | .slice e => (ofShape? records e).map (.sequence .boxedSlice)
        | _ => none
      else if name == "Arc" then
        match a with
        | .slice e => (ofShape? records e).map (.sequence .sharedSlice)
        | .path inner [e] =>
          if inner.getLast? == some "Vec" then (ofShape? records e).map (.sequence .sharedList)
          else none
        | .path inner [k, v] =>
          match inner.getLast?.bind KeyedForm.ofMapName?, ofShape? records k,
            ofShape? records v with
          | some form, some k, some v => some (.map form true k v)
          | _, _, _ => none
        | _ => none
      else
        match wrapper? name with
        | some wrap => (ofShape? records a).map wrap
        | none => none
  | .path segments [k, v] =>
    match segments.getLast?.bind KeyedForm.ofMapName?, ofShape? records k, ofShape? records v with
    | some form, some k, some v => some (.map form false k v)
    | _, _, _ => none
  | .array e length =>
    match ofShape? records e, Number.parseNat? length.toList with
    | some t, some n => some (.array t n)
    | _, _ => none
  | _ => none

/-- A member as it is declared. -/
def MemberType.decl (info : MemberInfo) : MemberType → MemberDecl
  | .cell t => ⟨info.name, t.shape, true, info.isId, info.isMutable, false, none⟩
  | .rows form head _ via =>
    ⟨info.name, form.shape head.name, true, info.isId, info.isMutable, true,
      via.map fun c => ⟨c.name, c.input.shape, form.shape head.name⟩⟩
  | .converted c =>
    ⟨info.name, c.output.shape, true, info.isId, info.isMutable, false,
      some ⟨c.name, c.input.shape, c.output.shape⟩⟩
  | .ignored d => .ignored info.name d.shape

/-- Members as they are declared. -/
def Members.decls : Members → List MemberDecl
  | .nil => []
  | .cons info t rest => t.decl info :: rest.decls

/-- A record as it is declared. -/
def RecordHead.decl (h : RecordHead) (ms : Members) : RecordDecl :=
  { name := h.name
    members := ms.decls
    closedReason := none
    isTable := h.isTable
    naming := h.naming
    isMutable := h.isMutable
    userImpls := h.userImpls }

/-- A record type as it is declared. -/
def RecordType.decl (r : RecordType) : RecordDecl := r.head.decl r.members

/-- The schema of a record type. -/
def RecordType.schema (r : RecordType) : RecordSchema := r.decl.schema

end TypedSheets
