import TypedSheets.Link.Error
import TypedSheets.Table.Ingest

/-!
# Reports

* `SheetReport` — what a bake did with a sheet
* `BakeReport` — what it did with all of them
-/

namespace TypedSheets

/-- What a bake did with a sheet. -/
structure SheetReport where
  name : String
  fileName : String
  rows : Nat
  created : Nat
  updated : Nat
  removed : Nat
  issues : List RowIssue
  references : List ReferenceError
  deriving DecidableEq

/-- What a bake did. -/
structure BakeReport where
  sheets : List SheetReport
  /-- Declared sheets that were left out. -/
  skipped : List String
  deriving DecidableEq

namespace BakeReport

/-- The report of a bake that has done nothing yet. -/
def empty : BakeReport := ⟨[], []⟩

/-- All unresolved references. -/
def referenceErrors (r : BakeReport) : List ReferenceError :=
  r.sheets.flatMap SheetReport.references

/-- All rows that were left out, each with its sheet. -/
def rowIssues (r : BakeReport) : List (String × RowIssue) :=
  r.sheets.flatMap fun s => s.issues.map fun i => (s.name, i)

/-- The number of rows. -/
def rows (r : BakeReport) : Nat := r.sheets.foldl (fun n s => n + s.rows) 0

/-- Whether no row was left out and every reference is resolved. -/
def isClean (r : BakeReport) : Bool :=
  r.sheets.all fun s => s.issues.isEmpty && s.references.isEmpty

/-- The reports with the unresolved references of a sheet; the first report of that name counts. -/
def withReferences (name : String) (errors : List ReferenceError) :
    List SheetReport → List SheetReport
  | [] => []
  | s :: rest =>
    if s.name == name then { s with references := errors } :: rest
    else s :: withReferences name errors rest

end BakeReport

end TypedSheets
