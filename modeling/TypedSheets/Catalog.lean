import TypedSheets.Cell.Shape
import TypedSheets.Table.Type

/-!
# Catalogs

A catalog holds every record type that a program declares. Table types have distinct names, so a
name and a position in the catalog stand for the same type.

* `Catalog` — the record types
* `Catalog.Id` — a table type of the catalog
* `Catalog.record?`, `Catalog.id?` — look up by name
* `Catalog.cellType?` — the cell type of a declared type
-/

namespace TypedSheets

/-- The record types of a program. -/
structure Catalog where
  /-- The record types that back no table. -/
  parts : List RecordType
  tables : List TableType
  names_nodup : (tables.map TableType.name).Nodup

namespace Catalog

/-- Every record type. -/
def records (c : Catalog) : List RecordType := c.parts ++ c.tables.map TableType.record

/-- The names of all record types, sorted. -/
def registered (c : Catalog) : List String := (c.records.map RecordType.name).mergeSort

/-- The record type of that name. -/
def record? (c : Catalog) (name : String) : Option RecordType :=
  c.records.find? fun r => r.name == name

/-- A table type of a catalog. -/
abbrev Id (c : Catalog) : Type := Fin c.tables.length

/-- The table type. -/
def type (c : Catalog) (i : c.Id) : TableType := c.tables[i]

/-- The table type of that name. -/
def id? (c : Catalog) (name : String) : Option c.Id := c.tables.findFinIdx? fun t => t.name == name

/-- The cell type of a declared type. -/
def cellType? (c : Catalog) (s : TypeShape) : Option CellType := CellType.ofShape? c.record? s

end Catalog

end TypedSheets
