import TypedSheets.Cell.Value
import TypedSheets.Json.Basic

/-!
# Values as tagged JSON

A view shows a value of the library as JSON, for tools that know no types. The modules of this
folder hold the views of values, schemas, property trees, reports and containers.

JSON has no form for maps with keys of any kind, for doubles that are no number, or for references.
They are shown as an object with one member that names the kind of the value.

* `Value.toTagged`, `Value.ofTagged` — the tagged form of a value, and back
* `RawRow.toTagged`, `AssetRef.toJson`, `AssetHandle.toJson`
-/

namespace TypedSheets

/-- The bits of a double as sixteen hexadecimal digits; all that are no number share one text. -/
def Number.doubleBits (d : Double) : String :=
  if d.isNaN then "nan" else String.ofList (hexFixed 16 d.bits.val)

/-- The double of a text of bits. -/
def Number.ofDoubleBits (s : String) : Double :=
  if s == "nan" then .nan .double false else .ofBits .double ((parseHex? s.toList).getD 0)

/-- The view of the place of an asset. -/
def AssetHandle.toJson (h : AssetHandle) : Json :=
  .ofMembers
    [("path", .string h.path), ("sub", .maybe .string h.sub), ("location", .string h.location)]

/-- The view of a reference to an asset. -/
def AssetRef.toJson (a : AssetRef) : Json :=
  .ofMembers
    [("path", .string a.path), ("sub", .maybe .string a.sub),
      ("handle", .maybe AssetHandle.toJson a.handle)]

/-- The view of a reference to a row. -/
def TargetRef.toJson (r : TargetRef) : Json :=
  .ofMembers
    [("target", .string r.target), ("key", .string r.ref.key),
      ("resolved", .maybe (fun k => .string k.text) r.ref.resolved)]

/-- An object with one member. -/
def Json.tagged (tag : String) (j : Json) : Json := .object [(tag, j)]

namespace Value

mutual

/-- The tagged form of a value. -/
def toTagged : Value → Json
  | .null => .null
  | .bool b => .bool b
  | .int i => .int i.val
  | .float d => .tagged "float" (.string (Number.doubleBits d))
  | .text s => .string s
  | .list vs => .array (toTaggedItems vs)
  | .map es => .tagged "map" (.array (toTaggedEntries es))
  | .record cells => .tagged "record" (.ofMembers (toTaggedCells cells))
  | .sheetRef r => .tagged "sheetRef" r.toJson
  | .assetRef a => .tagged "assetRef" a.toJson

/-- The tagged forms of the items of a list. -/
def toTaggedItems : List Value → List Json
  | [] => []
  | v :: rest => v.toTagged :: toTaggedItems rest

/-- The tagged forms of the entries of a map, each an array of two. -/
def toTaggedEntries : List (Value × Value) → List Json
  | [] => []
  | (k, v) :: rest => .array [k.toTagged, v.toTagged] :: toTaggedEntries rest

/-- The tagged forms of the cells of a row. -/
def toTaggedCells : List (String × Value) → List (String × Json)
  | [] => []
  | (name, v) :: rest => (name, v.toTagged) :: toTaggedCells rest

end

/-- The row key of a text `sheet:row`. -/
def rowKey? (s : String) : Option RowKey :=
  let text := s.toList
  match Number.parseNat? (text.takeWhile (· != ':')),
      Number.parseNat? ((text.dropWhile (· != ':')).drop 1) with
  | some sheet, some row => RowKey.of? (UInt16.ofNat sheet) (UInt64.ofNat row)
  | _, _ => none

/-- A text member of an object; a missing one is empty. -/
def textMember (name : String) (j : Json) : String :=
  match j.member? name with
  | some (.string s) => s
  | _ => ""

/-- A text member of an object that may be null. -/
def textMember? (name : String) (j : Json) : Option String :=
  match j.member? name with
  | some (.string s) => some s
  | _ => none

/-- The reference of a tagged form. -/
def reference (tag : String) (j : Json) : Value :=
  if tag == "sheetRef" then
    .sheetRef ⟨textMember "target" j, textMember "key" j, (textMember? "resolved" j).bind rowKey?⟩
  else if tag == "assetRef" then .assetRef (.of (textMember "path" j) (textMember? "sub" j))
  else .null

mutual

/-- The value of a tagged form. -/
def ofTagged : Json → Value
  | .array items => .list (ofTaggedItems items)
  | .object [(tag, .array entries)] =>
    if tag == "map" then .map (ofTaggedEntries entries) else .null
  | .object [(tag, .string bits)] =>
    if tag == "float" then .float (Number.ofDoubleBits bits) else .null
  | .object [(tag, .object members)] =>
    if tag == "record" then .record (RawRow.ofList (ofTaggedCells members))
    else reference tag (.object members)
  | other => ofJson other

/-- The values of the items of an array. -/
def ofTaggedItems : List Json → List Value
  | [] => []
  | j :: rest => ofTagged j :: ofTaggedItems rest

/-- The entries of arrays of two; anything else is left out. -/
def ofTaggedEntries : List Json → List (Value × Value)
  | [] => []
  | .array [k, v] :: rest => (ofTagged k, ofTagged v) :: ofTaggedEntries rest
  | _ :: rest => ofTaggedEntries rest

/-- The cells of the members of an object. -/
def ofTaggedCells : List (String × Json) → List (String × Value)
  | [] => []
  | (name, j) :: rest => (name, ofTagged j) :: ofTaggedCells rest

end

end Value

/-- The tagged form of a row. -/
def RawRow.toTagged (row : RawRow) : Json := (Value.record row).toTagged

end TypedSheets
