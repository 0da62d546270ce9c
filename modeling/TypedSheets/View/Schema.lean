import TypedSheets.Json.Basic
import TypedSheets.Schema.Accessor
import TypedSheets.Schema.Declaration

/-!
# Views of schemas

* `TypeShape.toJson`, `SemanticType.toJson`, `FieldDescriptor.toJson`
* `RecordSchema.toJson`, `GeneratedMembers.toJson`, `RecordDecl.toJson`
-/

namespace TypedSheets

namespace TypeShape

mutual

/-- The view of a declared type. -/
def toJson : TypeShape → Json
  | .path segments args =>
    .ofMembers [("path", .texts segments), ("args", .array (toJsonEach args))]
  | .array elem length => .ofMembers [("array", elem.toJson), ("len", .string length)]
  | .slice elem => .ofMembers [("slice", elem.toJson)]
  | .reference isMut inner => .ofMembers [("ref", inner.toJson), ("mut", .bool isMut)]
  | .tuple elems => .ofMembers [("tuple", .array (toJsonEach elems))]
  | .other text => .ofMembers [("other", .string text)]

/-- The views of declared types. -/
def toJsonEach : List TypeShape → List Json
  | [] => []
  | s :: rest => s.toJson :: toJsonEach rest

end

end TypeShape

/-- The name of a kind of meaning. -/
def SemanticType.name : SemanticType → String
  | .bool => "Bool"
  | .int => "Int"
  | .float => "Float"
  | .text => "Str"
  | .sheetRef _ => "SheetRef"
  | .assetRef => "AssetRef"
  | .record _ => "Record"
  | .other _ => "Other"

/-- The view of a meaning. -/
def SemanticType.toJson (s : SemanticType) : Json :=
  .ofMembers
    [("tag", .string s.name), ("text", .string s.message), ("primitive", .bool s.isPrimitive),
      ("copy", .bool s.isCopy), ("reference", .bool s.isReference)]

/-- The view of the converter of a member. -/
def ConverterSpec.toJson (c : ConverterSpec) : Json :=
  .ofMembers
    [("path", .string c.path), ("input", .string c.input), ("output", .string c.output)]

namespace FieldDescriptor

/-- The view of a descriptor, with the views of those of its keys and elements. -/
def toJsonWith (f : FieldDescriptor) (key element : Json) : Json :=
  .ofMembers
    [("declared_name", .string f.declaredName), ("property_name", .string f.propertyName),
      ("declared_type", .string f.declaredType), ("semantic", f.semantic.toJson),
      ("kind", .string f.kind.name), ("wire_name", .string f.wireName),
      ("mutable", .bool f.isMutable), ("id", .bool f.isId), ("vertical", .bool f.isVertical),
      ("member_kind", .string f.memberKind.name),
      ("converter", .maybe ConverterSpec.toJson f.converter), ("key", key), ("element", element),
      ("may_hold_references", .bool f.mayHoldReferences)]

mutual

/-- The view of a descriptor. -/
def toJson : FieldDescriptor → Json
  | mk n p t s k w m i v mk' c key element =>
    toJsonWith (mk n p t s k w m i v mk' c key element) (toJsonMaybe key) (toJsonMaybe element)

/-- The view of a descriptor that may be missing. -/
def toJsonMaybe : Option FieldDescriptor → Json
  | none => .null
  | some f => f.toJson

end

end FieldDescriptor

/-- The view of a schema. -/
def RecordSchema.toJson (s : RecordSchema) : Json :=
  .ofMembers
    [("name", .string s.name), ("fields", .array (s.fields.map FieldDescriptor.toJson)),
      ("naming", .maybe (fun n => .string n.name) s.naming), ("mutable", .bool s.isMutable),
      ("table", .bool s.isTable), ("id_field", .maybe .string s.idField),
      ("id", .maybe (fun f => .string f.propertyName) s.id?),
      ("vertical", .array (s.vertical.map fun v => .texts [v.targetType, v.property])),
      ("closed_reason", .maybe .string s.closedReason), ("user_impls", .texts s.userImpls),
      ("ignored", .texts s.ignored)]

/-- The view of an accessor. -/
def Accessor.toJson (a : Accessor) : Json :=
  .ofMembers
    [("field", .string a.field), ("property", .string a.property), ("getter", .string a.getter),
      ("setter", .maybe .string a.setter), ("marshaling", .string a.marshaling.name),
      ("type", .string a.type), ("item", .maybe .string a.item)]

/-- The view of generated members. -/
def GeneratedMembers.toJson (g : GeneratedMembers) : Json :=
  .ofMembers
    [("record", .string g.record), ("accessors", .array (g.accessors.map Accessor.toJson)),
      ("id_extractor", .maybe (fun i => .texts [i.field, i.idType]) g.idExtractor),
      ("skipped", .texts g.skipped)]

/-- The view of a declared member. -/
def MemberDecl.toJson (m : MemberDecl) : Json :=
  .ofMembers
    [("name", .string m.name), ("type", .string m.type.text), ("data", .bool m.isData),
      ("id", .bool m.isId), ("mutable", .bool m.isMutable), ("vertical", .bool m.isVertical),
      ("convert", .maybe (fun c => .texts [c.path, c.input.text, c.output.text]) m.converter)]

/-- The view of a declaration. -/
def RecordDecl.toJson (d : RecordDecl) : Json :=
  .ofMembers
    [("name", .string d.name), ("closed", .maybe .string d.closedReason),
      ("table", .bool d.isTable), ("mutable", .bool d.isMutable),
      ("naming", .maybe (fun n => .string n.name) d.naming), ("user_impl", .texts d.userImpls),
      ("members", .array (d.members.map MemberDecl.toJson))]

end TypedSheets
