import TypedSheets.Schema.Shape

/-!
# Semantic types

What a value means, apart from how it is collected.

* `SemanticType` — the meanings
* `SemanticType.of` — the meaning of a shape, options looked through
-/

namespace TypedSheets

/-- What a value means. -/
inductive SemanticType where
  | bool
  | int
  | float
  | text
  | sheetRef (target : String)
  | assetRef
  | record (name : String)
  | other (name : String)
  deriving DecidableEq, Repr

namespace SemanticType

/-- A truth value, number or text. -/
def isPrimitive : SemanticType → Bool
  | .bool | .int | .float | .text => true
  | _ => false

/-- A value that is handed out by copying. -/
def isCopy : SemanticType → Bool
  | .bool | .int | .float => true
  | _ => false

/-- A reference to a row or an asset. -/
def isReference : SemanticType → Bool
  | .sheetRef _ | .assetRef => true
  | _ => false

/-- The written form. -/
def message : SemanticType → String
  | .bool => "bool"
  | .int => "int"
  | .float => "float"
  | .text => "string"
  | .sheetRef target => "sheet reference to " ++ target
  | .assetRef => "asset reference"
  | .record name => "record " ++ name
  | .other name => name

/-- The names of the integer types. -/
def intNames : List String :=
  ["i8", "i16", "i32", "i64", "i128", "isize", "u8", "u16", "u32", "u64", "u128", "usize"]

/-- The meaning of a path without arguments. -/
def ofIdent? (ident : String) : Option SemanticType :=
  if ident == "bool" then some .bool
  else if intNames.contains ident then some .int
  else if ident == "f32" || ident == "f64" then some .float
  else if ident == "String" || ident == "str" then some .text
  else if ident == "AssetRef" then some .assetRef
  else none

/-- The meaning of a shape that is no option. -/
def ofPlain (s : TypeShape) : SemanticType :=
  match s with
  | .path segments [] => (ofIdent? (segments.getLast?.getD "")).getD (.other s.text)
  | .path segments [target] =>
    if segments.getLast? == some "SheetRef" then .sheetRef (target.ident?.getD target.text)
    else .other s.text
  | .reference _ inner => if inner.ident? == some "str" then .text else .other s.text
  | s => .other s.text

/-- The meaning of a shape; an option means what is inside it. -/
def of (s : TypeShape) : SemanticType := ofPlain s.unwrapOption

end SemanticType

end TypedSheets
