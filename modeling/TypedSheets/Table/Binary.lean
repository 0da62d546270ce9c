import TypedSheets.Cell.Binary
import TypedSheets.Table.Basic

/-!
# Tables as bytes

* `Table.encode` — the key and the bytes of every row, in row order
* `Table.restore` — the table of keys and bytes
* `RestoreError` — why bytes give no table
-/

namespace TypedSheets

/-- Why kept rows give no table. -/
inductive RestoreError where
  /-- The bytes are no row. -/
  | undecodable
  /-- A row has another id than the key it is kept under. -/
  | otherId (sheet key id : String)
  /-- Two rows have one id. -/
  | refused (e : TableError)
  deriving DecidableEq

namespace Table

variable {t : TableType}

/-- The key and the bytes of every row. -/
def encode (table : Table t) : List (String × List UInt8) :=
  table.rows.toList.map fun row => (t.key row, t.record.encode row)

/-- The table with kept rows at the end. -/
def restoreFrom (table : Table t) : List (String × List UInt8) → Except RestoreError (Table t)
  | [] => .ok table
  | (key, bytes) :: rest =>
    match t.record.decode? bytes with
    | none => .error .undecodable
    | some row =>
      if t.key row ≠ key then .error (.otherId table.name key (t.key row))
      else
        match table.push row with
        | .error e => .error (.refused e)
        | .ok table => table.restoreFrom rest

/-- The table of kept rows. -/
def restore (t : TableType) (name : String) (kept : List (String × List UInt8)) :
    Except RestoreError (Table t) :=
  (empty t name).restoreFrom kept

end Table

end TypedSheets
