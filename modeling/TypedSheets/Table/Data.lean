import TypedSheets.Cell.Shape
import TypedSheets.Table.Basic

/-!
# Tables at run time

A data table answers by id and by key with handles. A handle without a row is invalid: it gives an
error instead of a default. Rows may be replaced only if the record type allows it, and a row keeps
the id it is stored under.

* `RowHandle` — perhaps a row
* `DataTable`, `DataTable.ofRows` — rows with an index of their keys
* `DataTable.byKey`, `DataTable.byId` — look up
* `DataTable.writable?`, `DataTable.trySet` — replace a row
-/

namespace TypedSheets

/-- Access to a row that may not be there. -/
structure RowHandle (ρ : Type) where
  row : Option ρ

namespace RowHandle

variable {ρ : Type}

/-- The handle without a row. -/
def invalid : RowHandle ρ := ⟨none⟩

/-- Whether there is a row. -/
def isValid (h : RowHandle ρ) : Bool := h.row.isSome

/-- The row. -/
def value (h : RowHandle ρ) : Except TableError ρ :=
  match h.row with
  | some row => .ok row
  | none => .error .invalidHandle

end RowHandle

/-- The rows of a sheet at run time, with the position of every key. -/
structure DataTable (t : TableType) where
  name : String
  rows : Array t.Row
  index : Std.HashMap String Nat

namespace DataTable

variable {t : TableType}

/-- The positions of the keys of rows, or the first key that is repeated. -/
def indexFrom (name : String) (index : Std.HashMap String Nat) (position : Nat) :
    List t.Row → Except TableError (Std.HashMap String Nat)
  | [] => .ok index
  | row :: rest =>
    let key := t.key row
    if index.contains key then .error (.duplicateId name key)
    else indexFrom name (index.insert key position) (position + 1) rest

/-- The data table of these rows. -/
def ofRows (t : TableType) (name : String) (rows : Array t.Row) :
    Except TableError (DataTable t) :=
  match indexFrom name ∅ 0 rows.toList with
  | .ok index => .ok ⟨name, rows, index⟩
  | .error e => .error e

/-- The number of rows. -/
def size (table : DataTable t) : Nat := table.rows.size

/-- The row at a position. -/
def byPosition (table : DataTable t) (position : Nat) : RowHandle t.Row := ⟨table.rows[position]?⟩

/-- The row of a key. -/
def byKey (table : DataTable t) (key : String) : RowHandle t.Row :=
  match table.index[key]? with
  | some position => table.byPosition position
  | none => .invalid

/-- The row of an id. -/
def byId (table : DataTable t) (id : t.id.El) : RowHandle t.Row := table.byKey (t.id.key id)

/-- The table without its rows. -/
def cleared (table : DataTable t) : DataTable t := ⟨table.name, #[], ∅⟩

/-- The table, if its rows may be replaced. -/
def writable? (table : DataTable t) : Except TableError (DataTable t) :=
  if t.record.schema.isMutable then .ok table else .error (.immutable table.name)

/-- The table with another row under an id. The row has to have that id. -/
def trySet (table : DataTable t) (id : t.id.El) (row : t.Row) :
    Except TableError (DataTable t) :=
  let key := t.id.key id
  match table.index[key]? with
  | none => .error (.notFound table.name key)
  | some position =>
    let found := t.key row
    if found ≠ key then .error (.idMismatch key found)
    else .ok { table with rows := table.rows.setIfInBounds position row }

end DataTable

end TypedSheets
