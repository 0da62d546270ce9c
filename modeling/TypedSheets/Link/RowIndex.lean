import TypedSheets.Container.Basic

/-!
# The rows of a container by type and key

* `RowIndex.ofContainer` — the row keys of every sheet
* `RowIndex.lookup?` — the row of a record type and key; the first sheet of the type that has it
-/

namespace TypedSheets

variable {c : Catalog}

/-- The row keys of a sheet by the keys of its rows. -/
structure SheetIndex where
  /-- The record type of the rows. -/
  target : String
  rows : Std.HashMap String RowKey

/-- The row keys of every sheet, in the order of the container. -/
structure RowIndex where
  sheets : List SheetIndex

namespace RowIndex

/-- The row keys of keys, the first of which stands at `row`; places that no row key can name are
left out. -/
def rowKeysFrom (sheet row : Nat) (found : Std.HashMap String RowKey) :
    List String → Std.HashMap String RowKey
  | [] => found
  | key :: rest =>
    let found :=
      match RowKey.of? (UInt16.ofNat sheet) (UInt64.ofNat row) with
      | some k => found.insert key k
      | none => found
    rowKeysFrom sheet (row + 1) found rest

/-- The row keys of a table at an ordinal. -/
def sheetIndex (sheet : Nat) (t : AnyTable c) : SheetIndex :=
  ⟨t.recordName, rowKeysFrom sheet 0 ∅ t.keys⟩

/-- The row keys of tables, the first of which has the ordinal `sheet`. -/
def sheetsFrom (sheet : Nat) : List (AnyTable c) → List SheetIndex
  | [] => []
  | t :: rest => sheetIndex sheet t :: sheetsFrom (sheet + 1) rest

/-- The row keys of a container. -/
def ofContainer (b : Container c) : RowIndex := ⟨sheetsFrom 0 b.tables.toList⟩

/-- The row of a record type and key, in the first sheet of the type that has it. -/
def lookup? (index : RowIndex) (target key : String) : Option RowKey :=
  index.sheets.findSome? fun s => if s.target == target then s.rows[key]? else none

/-- The number of rows. -/
def size (index : RowIndex) : Nat := index.sheets.foldl (fun n s => n + s.rows.size) 0

end RowIndex

/-- The linker of a container. -/
def Container.linker (b : Container c) (assets : AssetResolver) : Linker :=
  ⟨(RowIndex.ofContainer b).lookup?, assets⟩

end TypedSheets
