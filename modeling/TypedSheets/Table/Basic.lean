import Std.Data.HashMap
import TypedSheets.Table.Error
import TypedSheets.Table.Type

/-!
# Tables

The rows of a sheet in order, with an index of their keys.

* `Table` — name, rows and index
* `Table.push` — adds a row whose key is new
* `Table.ofRows` — a table of rows, or the first key that is repeated
* `Table.position?`, `Table.find?` — look up by key and by id
* `Table.keys` — the keys in row order
-/

namespace TypedSheets

/-- The rows of a sheet, with the position of every key. -/
structure Table (t : TableType) where
  name : String
  rows : Array t.Row
  index : Std.HashMap String Nat

namespace Table

variable {t : TableType}

/-- The table without rows. -/
def empty (t : TableType) (name : String) : Table t := ⟨name, #[], ∅⟩

/-- The number of rows. -/
def size (table : Table t) : Nat := table.rows.size

/-- The keys in row order. -/
def keys (table : Table t) : List String := table.rows.toList.map t.key

/-- The position of a key. -/
def position? (table : Table t) (key : String) : Option Nat := table.index[key]?

/-- The row at a position. -/
def get? (table : Table t) (position : Nat) : Option t.Row := table.rows[position]?

/-- The row of an id. -/
def find? (table : Table t) (id : t.id.El) : Option t.Row :=
  (table.position? (t.id.key id)).bind table.get?

/-- The table with another row at the end, unless its key is there. -/
def push (table : Table t) (row : t.Row) : Except TableError (Table t) :=
  let key := t.key row
  if table.index.contains key then .error (.duplicateId table.name key)
  else
    let index := table.index.insert key table.rows.size
    .ok ⟨table.name, table.rows.push row, index⟩

theorem rows_push {table next : Table t} {row : t.Row} (h : table.push row = .ok next) :
    next.rows = table.rows.push row := by
  simp only [push] at h
  split at h <;> cases h
  rfl

theorem keys_push {table next : Table t} {row : t.Row} (h : table.push row = .ok next) :
    next.keys = table.keys ++ [t.key row] := by
  simp [keys, rows_push h]

/-- The table with more rows at the end, one after the other. -/
def pushEach (table : Table t) : List t.Row → Except TableError (Table t)
  | [] => .ok table
  | row :: rest =>
    match table.push row with
    | .ok table => table.pushEach rest
    | .error e => .error e

/-- The table of these rows. -/
def ofRows (t : TableType) (name : String) (rows : List t.Row) : Except TableError (Table t) :=
  (empty t name).pushEach rows

end Table

end TypedSheets
