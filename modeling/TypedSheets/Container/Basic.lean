import TypedSheets.Catalog
import TypedSheets.Container.Error
import TypedSheets.Link.Table
import TypedSheets.Table.Binary
import TypedSheets.Table.Ingest

/-!
# Containers

A container holds tables of different types under distinct names. The position of a table is the
sheet ordinal of the keys of its rows.

* `AnyTable` — a table together with its type
* `Container` — tables by position and by name
* `Container.insert` — adds a table whose name is new
* `Container.table` — the table of a name and a type
* `Container.get?` — the row of a row key
-/

namespace TypedSheets

variable {c : Catalog}

/-- A table of some type of a catalog. -/
structure AnyTable (c : Catalog) where
  id : c.Id
  table : Table (c.type id)

namespace AnyTable

/-- The name of the sheet. -/
def name (t : AnyTable c) : String := t.table.name

/-- The name of the record type. -/
def recordName (t : AnyTable c) : String := (c.type t.id).name

/-- The number of rows. -/
def size (t : AnyTable c) : Nat := t.table.size

/-- The keys in row order. -/
def keys (t : AnyTable c) : List String := t.table.keys

/-- The table as one of a type, if it has that type. -/
def as? (t : AnyTable c) (i : c.Id) : Option (Table (c.type i)) :=
  if h : t.id = i then some (h ▸ t.table) else none

end AnyTable

/-- Tables by position and by name. -/
structure Container (c : Catalog) where
  naming : Naming
  tables : Array (AnyTable c)
  byName : Std.HashMap String Nat

namespace Container

/-- The container without tables. -/
def empty (c : Catalog) (naming : Naming) : Container c := ⟨naming, #[], ∅⟩

/-- The number of tables. -/
def size (b : Container c) : Nat := b.tables.size

/-- The names of the sheets in order. -/
def sheetNames (b : Container c) : List String := b.tables.toList.map AnyTable.name

/-- Why a table cannot be added, if it cannot. -/
def refusal? (b : Container c) (t : AnyTable c) : Option BakeError :=
  if b.byName.contains t.name then some (.duplicateSheet t.name)
  else if maxSheets ≤ b.size then some (.capacity .sheets)
  else if RowKey.maxRow.toNat + 1 < t.size then some (.capacity (.rows t.name t.size))
  else none

/-- The container with another table at the end. -/
def push (b : Container c) (t : AnyTable c) : Container c :=
  let byName := b.byName.insert t.name b.tables.size
  ⟨b.naming, b.tables.push t, byName⟩

@[simp] theorem sheetNames_push (b : Container c) (t : AnyTable c) :
    (b.push t).sheetNames = b.sheetNames ++ [t.name] := by
  simp [sheetNames, push]

/-- The container with another table at the end, unless it cannot be added. -/
def insert (b : Container c) (t : AnyTable c) : Except BakeError (Container c) :=
  match b.refusal? t with
  | some e => .error e
  | none => .ok (b.push t)

/-- The container with more tables at the end, up to the first that cannot be added. -/
def insertEach (b : Container c) : List (AnyTable c) → Container c × Option BakeError
  | [] => (b, none)
  | t :: rest =>
    match b.refusal? t with
    | some e => (b, some e)
    | none => (b.push t).insertEach rest

/-- The ordinal of a sheet. -/
def ordinal? (b : Container c) (name : String) : Option Nat := b.byName[name]?

/-- The table of a sheet. -/
def sheet? (b : Container c) (name : String) : Option (AnyTable c) :=
  (b.ordinal? name).bind fun i => b.tables[i]?

/-- The table of a sheet, as one of a type. -/
def table (b : Container c) (i : c.Id) (name : String) :
    Except TableError (Table (c.type i)) :=
  match b.sheet? name with
  | none => .error (.sheetMissing name)
  | some t =>
    match t.as? i with
    | some table => .ok table
    | none => .error (.typeMismatch name (c.type i).name t.recordName)

/-- The first table of a type. -/
def firstTable? (b : Container c) (i : c.Id) : Option (Table (c.type i)) :=
  b.tables.toList.findSome? fun t => t.as? i

/-- The row of a row key, as one of a type. -/
def get? (b : Container c) (i : c.Id) (k : RowKey) : Option (c.type i).Row :=
  match b.tables[k.sheet.toNat]? with
  | none => none
  | some t => (t.as? i).bind fun table => table.get? k.row.toNat

/-- The text of a container for diagnostics: the number of rows of every sheet. -/
def debugText (b : Container c) : String :=
  "\x7b" ++ ", ".intercalate (b.tables.toList.map fun t =>
    Text.quoted t.name ++ ": " ++ Number.natText t.size) ++ "\x7d"

end Container

end TypedSheets
