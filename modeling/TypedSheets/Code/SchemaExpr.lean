import TypedSheets.Code.Template
import TypedSheets.Schema.Field

/-!
# The expression of a schema

The expression that rebuilds a schema when the generated code runs. Every part of the schema has a
field of its own, so the expression determines the schema.

* `Code.fieldExpr` — a descriptor
* `Code.schemaExpr` — a schema
-/

namespace TypedSheets.Code

/-- The path of a variant of an enumeration of the schema library. -/
def variant (lib : Tokens) (enumeration name : String) : Tokens :=
  path lib ["schema", enumeration, name]

/-- A meaning. -/
def semanticExpr (lib : Tokens) : SemanticType → Tokens
  | .bool => variant lib "SemanticType" "Bool"
  | .int => variant lib "SemanticType" "Int"
  | .float => variant lib "SemanticType" "Float"
  | .text => variant lib "SemanticType" "Str"
  | .assetRef => variant lib "SemanticType" "AssetRef"
  | .sheetRef target =>
    inlineStruct (variant lib "SemanticType" "SheetRef") [("target", stringExpr target)]
  | .record name => inlineStruct (variant lib "SemanticType" "Record") [("name", stringExpr name)]
  | .other name => inlineStruct (variant lib "SemanticType" "Other") [("name", stringExpr name)]

/-- The name of the variant of a naming. -/
def namingVariant : Naming → String
  | .pascal => "PascalCase"
  | .camel => "CamelCase"
  | .snake => "SnakeCase"
  | .kebab => "KebabCase"

/-- A converter. -/
def converterExpr (lib : Tokens) (c : ConverterSpec) : Tokens :=
  inlineStruct (path lib ["schema", "ConverterSpec"])
    [("path", stringExpr c.path), ("input", stringExpr c.input), ("output", stringExpr c.output)]

/-- A boxed value. -/
def boxExpr (ts : Tokens) : Tokens := stdPath ["boxed", "Box", "new"] ++ parens ts

mutual

/-- A descriptor. -/
def fieldExpr (lib : Tokens) : FieldDescriptor → Tokens
  | .mk declaredName propertyName declaredType semantic kind wireName isMutable isId isVertical
      memberKind converter key element =>
    structExpr (path lib ["schema", "FieldDescriptor"])
      [("declared_name", stringExpr declaredName),
        ("property_name", stringExpr propertyName),
        ("declared_type", stringExpr declaredType),
        ("semantic_type", semanticExpr lib semantic),
        ("collection_kind", variant lib "CollectionKind" kind.name),
        ("wire_name", stringExpr wireName),
        ("is_mutable", boolExpr isMutable),
        ("is_id", boolExpr isId),
        ("is_vertical", boolExpr isVertical),
        ("member_kind", variant lib "MemberKind" memberKind.name),
        ("converter", optionExpr (converter.map (converterExpr lib))),
        ("key", optionExpr (boxedField lib key)),
        ("element", optionExpr (boxedField lib element))]

/-- A boxed descriptor, if there is one. -/
def boxedField (lib : Tokens) : Option FieldDescriptor → Option Tokens
  | none => none
  | some d => some (boxExpr (fieldExpr lib d))

end

/-- A vertical relation. -/
def relationExpr (lib : Tokens) (r : VerticalRelation) : Tokens :=
  inlineStruct (path lib ["schema", "VerticalRelation"])
    [("target_type", stringExpr r.targetType), ("property", stringExpr r.property)]

/-- A schema. -/
def schemaExpr (lib : Tokens) (s : RecordSchema) : Tokens :=
  structExpr (path lib ["schema", "RecordSchema"])
    [("name", stringExpr s.name),
      ("fields", vecExpr (s.fields.map (fieldExpr lib))),
      ("naming", optionExpr (s.naming.map fun n => variant lib "NamingStrategy" (namingVariant n))),
      ("is_mutable", boolExpr s.isMutable),
      ("is_table", boolExpr s.isTable),
      ("id_field", optionExpr (s.idField.map stringExpr)),
      ("vertical", vecExpr (s.vertical.map (relationExpr lib))),
      ("closed_reason", optionExpr (s.closedReason.map stringExpr)),
      ("user_impls", vecExpr (s.userImpls.map stringExpr)),
      ("ignored", vecExpr (s.ignored.map stringExpr))]

end TypedSheets.Code
