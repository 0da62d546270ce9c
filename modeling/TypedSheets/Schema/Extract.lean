import TypedSheets.Schema.Error
import TypedSheets.Schema.Field

/-!
# The schema of a declaration

The data members are gone through in order; the first fault ends the extraction.

* `RecordDecl.memberFault?`, `RecordDecl.fault?` — the first fault of a member and of a record
* `RecordDecl.field`, `RecordDecl.schema` — the descriptor of a member and the schema
* `RecordDecl.extract` — the schema, or the first fault
-/

namespace TypedSheets

namespace RecordDecl

/-- The naming under which the descriptors name their columns. -/
def ownNaming (d : RecordDecl) : Naming := d.naming.getD .pascal

/-- The fault of a converter: its output is not the member's type, paths compared by their last
segment, or its input is not a primitive. -/
def checkConverter? (d : RecordDecl) (m : MemberDecl) (c : ConverterDecl) : Option SchemaError :=
  if c.output.lastSegments ≠ m.type.lastSegments then
    some (.invalidConverter d.name m.name c.path ("output `" ++ m.type.text ++ "`")
      ("`" ++ c.output.text ++ "`"))
  else if CollectionKind.of c.input ≠ .scalar || !(SemanticType.of c.input).isPrimitive then
    some (.invalidConverter d.name m.name c.path
      "a primitive input (bool, integer, float or string)" ("`" ++ c.input.text ++ "`"))
  else none

/-- The record type of the rows of a vertical member: what its elements are, if it is a sequence. -/
def verticalTarget? (m : MemberDecl) : Option String :=
  let kind := CollectionKind.of m.type
  if m.isVertical && kind.isSequence then (kind.elementShapes m.type).2.bind TypeShape.ident?
  else none

/-- The fault of a vertical member that is no sequence of records. -/
def checkVertical? (d : RecordDecl) (m : MemberDecl) : Option SchemaError :=
  if m.isVertical && (verticalTarget? m).isNone then
    some (.invalidVerticalList d.name m.name
      ((CollectionKind.of m.type).name ++ " `" ++ m.type.text ++ "`"))
  else none

/-- The fault of a member that claims the property name of an earlier one. -/
def checkAccessor? (d : RecordDecl) (earlier : List MemberDecl) (m : MemberDecl) :
    Option SchemaError :=
  (earlier.find? fun e => propertyName e.name == propertyName m.name).map fun e =>
    .ambiguousAccessor d.name (propertyName m.name) e.name m.name

/-- The fault of a second id. -/
def checkId? (d : RecordDecl) (earlier : List MemberDecl) (m : MemberDecl) : Option SchemaError :=
  if m.isId then
    (earlier.find? MemberDecl.isId).map fun e => .multipleIdMembers d.name e.name m.name
  else none

/-- The first fault of a data member behind others. -/
def memberFault? (d : RecordDecl) (earlier : List MemberDecl) (m : MemberDecl) :
    Option SchemaError :=
  (d.checkAccessor? earlier m).or <| (d.checkId? earlier m).or <|
    (m.converter.bind (d.checkConverter? m)).or (d.checkVertical? m)

/-- The first fault of the data members behind others. -/
def faultFrom? (d : RecordDecl) (earlier : List MemberDecl) : List MemberDecl → Option SchemaError
  | [] => none
  | m :: rest =>
    match d.memberFault? earlier m with
    | some fault => some fault
    | none => d.faultFrom? (earlier ++ [m]) rest

/-- The first fault of a declaration. -/
def fault? (d : RecordDecl) : Option SchemaError := d.faultFrom? [] d.dataMembers

/-- The specification of a member's converter. -/
def converterSpec (c : ConverterDecl) : ConverterSpec := ⟨c.path, c.input.text, c.output.text⟩

/-- The descriptor of a data member. A vertical member and its elements are records. -/
def field (d : RecordDecl) (m : MemberDecl) : FieldDescriptor :=
  match FieldDescriptor.describe m.name d.ownNaming m.type with
  | .mk name property type semantic kind wire _ _ _ memberKind _ key element =>
    let record := (verticalTarget? m).map SemanticType.record
    .mk name property type (record.getD semantic) kind wire (m.isMutable || d.isMutable) m.isId
      m.isVertical memberKind (m.converter.map converterSpec) key
      (element.map fun e => e.withSemantic (record.getD e.semantic))

/-- The relation that a vertical member adds. -/
def relation? (m : MemberDecl) : Option VerticalRelation :=
  (verticalTarget? m).map fun target => ⟨target, propertyName m.name⟩

/-- The schema of a declaration without faults. -/
def schema (d : RecordDecl) : RecordSchema :=
  { name := d.name
    fields := d.dataMembers.map d.field
    naming := d.naming
    isMutable := d.isMutable
    isTable := d.isTable
    idField := (d.dataMembers.find? MemberDecl.isId).map MemberDecl.name
    vertical := d.dataMembers.filterMap relation?
    closedReason := d.closedReason
    userImpls := d.userImpls
    ignored := (d.members.filter fun m => !m.isData).map MemberDecl.name }

/-- The schema of a declaration, or the first fault of its data members. -/
def extract (d : RecordDecl) : Except SchemaError RecordSchema :=
  match d.fault? with
  | some fault => .error fault
  | none => .ok d.schema

end RecordDecl

end TypedSheets
