import TypedSheets.Artifact.Manifest
import TypedSheets.Bake.Report
import TypedSheets.Cell.Print
import TypedSheets.Container.Basic
import TypedSheets.View.Value

/-!
# Views of bakes and containers

* `RecordType.rowJson` — the view of a row
* `BakeReport.toJson` — the view of a report
* `Container.toJson`, `Manifest.toJson` — the views of what a bake makes
-/

namespace TypedSheets

/-- The view of a row, as it is printed where no naming is inherited. -/
def RecordType.rowJson (r : RecordType) (row : r.Row) : Json := (r.print .pascal row).toTagged

/-- The view of an unresolved reference. -/
def ReferenceError.toJson (e : ReferenceError) : Json :=
  .ofMembers [("error", .string e.name), ("message", .string e.message)]

/-- The view of a row that was left out. -/
def RowIssue.toJson (i : RowIssue) : Json :=
  .array [.nat i.position, .maybe .string i.id, .string i.reason]

/-- The view of what a bake did with a sheet. -/
def SheetReport.toJson (s : SheetReport) : Json :=
  .ofMembers
    [("name", .string s.name), ("file", .string s.fileName), ("rows", .nat s.rows),
      ("created", .nat s.created), ("updated", .nat s.updated), ("removed", .nat s.removed),
      ("issues", .array (s.issues.map RowIssue.toJson)),
      ("references", .array (s.references.map ReferenceError.toJson))]

/-- The members of the view of what a bake did. -/
def BakeReport.toMembers (r : BakeReport) : List (String × Json) :=
  [("sheets", .array (r.sheets.map SheetReport.toJson)), ("skipped", .texts r.skipped),
    ("rows", .nat r.rows), ("clean", .bool r.isClean),
    ("row_issues", .array (r.rowIssues.map fun i => .array [.string i.1, .nat i.2.position])),
    ("reference_errors", .nat r.referenceErrors.length)]

/-- The view of a table. -/
def AnyTable.toJson {c : Catalog} (t : AnyTable c) : Json :=
  .ofMembers
    [("name", .string t.name), ("record", .string t.recordName), ("keys", .texts t.keys),
      ("rows", .array (t.table.rows.toList.map (c.type t.id).record.rowJson))]

/-- The view of a container. -/
def Container.toJson {c : Catalog} (b : Container c) : Json :=
  .ofMembers
    [("naming", .string b.naming.name), ("sheets", .array (b.tables.toList.map AnyTable.toJson))]

/-- The view of what a manifest says of a sheet. -/
def SheetArtifact.toJson (s : SheetArtifact) : Json :=
  .ofMembers
    [("name", .string s.name), ("file", .string s.fileName), ("record", .string s.record),
      ("keys", .texts s.keys)]

/-- The view of a manifest, apart from its time. -/
def Manifest.toJson (m : Manifest) : Json :=
  .ofMembers
    [("naming", .string m.naming.name), ("sheets", .array (m.sheets.map SheetArtifact.toJson))]

end TypedSheets
