import TypedSheets.Table.Basic

/-!
# From raw rows to a table

Raw rows that do not convert, have a blank id or repeat an id are left out and reported.

* `RowIssue` — a raw row that was left out, and why
* `Table.ingest` — the table of raw rows, and the issues
-/

namespace TypedSheets

/-- A raw row that did not make it into its table. -/
structure RowIssue where
  /-- The position among the raw rows. -/
  position : Nat
  id : Option String
  reason : String
  deriving DecidableEq

namespace Table

variable {t : TableType}

/-- The reason given for a row whose id is blank. -/
def blankId : String := "blank row id"

/-- The table with a raw row at the end, or why it is left out. -/
def accept (table : Table t) (naming : Naming) (position : Nat) (raw : RawRow) :
    Except RowIssue (Table t) :=
  match t.record.read naming raw with
  | .error e => .error ⟨position, none, e.message⟩
  | .ok row =>
    if !isValidKey (t.key row) then .error ⟨position, none, blankId⟩
    else (table.push row).mapError fun e => ⟨position, some (t.key row), e.message⟩

/-- The table with raw rows at the end; the first of them has the position `position`. -/
def acceptFrom (table : Table t) (naming : Naming) (position : Nat) :
    List RawRow → Table t × List RowIssue
  | [] => (table, [])
  | raw :: rest =>
    match table.accept naming position raw with
    | .ok table => table.acceptFrom naming (position + 1) rest
    | .error issue =>
      let (table, issues) := table.acceptFrom naming (position + 1) rest
      (table, issue :: issues)

/-- The table of raw rows, and the rows that were left out. -/
def ingest (t : TableType) (name : String) (naming : Naming) (raws : List RawRow) :
    Table t × List RowIssue :=
  (empty t name).acceptFrom naming 0 raws

end Table

end TypedSheets
