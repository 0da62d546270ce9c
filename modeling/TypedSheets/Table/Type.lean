import TypedSheets.Cell.Type
import TypedSheets.Cell.Read

/-!
# Table types

A record type that backs tables has a way to the id of a row. The text of an id is its key; keys
name rows across sheets and between bakes.

* `IdType` — the types of ids
* `IdType.key` — the key of an id
* `isValidKey` — keys that may be kept
* `TableType` — a record type with ids
-/

namespace TypedSheets

/-- A type of ids. -/
inductive IdType where
  | bool
  | int (k : IntKind)
  | text
  deriving DecidableEq

namespace IdType

/-- The scalar type of the ids. -/
def scalar : IdType → ScalarType
  | .bool => .bool
  | .int k => .int k
  | .text => .text

/-- The ids of a type. -/
def El (t : IdType) : Type := t.scalar.El

/-- Reads an id. -/
def read (t : IdType) (v : Value) : Except CellError t.El := t.scalar.read v

/-- The text of an id. -/
def key : (t : IdType) → t.El → String
  | .bool => fun (b : Bool) => Value.boolText b
  | .int _ => fun (x : IntKind.El _) => Number.intText x.val
  | .text => fun (s : String) => s

end IdType

/-- Whether a key may be kept: it is not blank. -/
def isValidKey (key : String) : Bool := !Text.isBlank key

/-- A record type that backs tables. -/
structure TableType where
  record : RecordType
  id : IdType
  getId : record.Row → id.El

namespace TableType

/-- The rows of a table type. -/
abbrev Row (t : TableType) : Type := t.record.Row

/-- The name of the record type. -/
abbrev name (t : TableType) : String := t.record.name

/-- The key of a row. -/
def key (t : TableType) (row : t.Row) : String := t.id.key (t.getId row)

end TableType

end TypedSheets
