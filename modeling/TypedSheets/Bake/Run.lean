import TypedSheets.Artifact.Process
import TypedSheets.Bake.Report
import TypedSheets.Container.Schema
import TypedSheets.Entries
import TypedSheets.Link.RowIndex
import TypedSheets.Source

/-!
# Baking

A bake turns the raw rows of the declared sheets into a container of typed tables. Sheet by sheet
it asks the store for the keys of the last bake, reads the rows and compares the keys; a key that
has been compared once is used up. Then it links all references and saves everything in one
transaction. It may be cancelled before it saves.

* `ExistingKeys`, `ExistingKeys.diff` — the kept keys of a sheet, compared with the keys of now
* `RowDiff` — created, updated and removed keys
* `Baker` — what a bake works with
* `BakeState` — how far it is
* `Baker.fileFor`, `Baker.addSheet` — one sheet
* `Baker.link`, `Baker.plan` — all sheets
* `Baker.bake` — the process
-/

namespace TypedSheets

/-- The kept keys of a sheet, sorted. -/
structure ExistingKeys where
  fileName : String
  keys : List String

/-- What became of the keys of a sheet. -/
structure RowDiff where
  created : List String
  updated : List String
  removed : List String
  deriving DecidableEq

/-- Compares keys with those that are left. -/
def diffKeys (left : List String) : List String → RowDiff
  | [] => ⟨[], [], left⟩
  | key :: rest =>
    if left.contains key then
      let d := diffKeys (left.erase key) rest
      { d with updated := key :: d.updated }
    else
      let d := diffKeys left rest
      { d with created := key :: d.created }

/-- Compares the keys of now with the kept ones. -/
def ExistingKeys.diff (e : ExistingKeys) (current : List String) : RowDiff :=
  diffKeys e.keys current

variable {c : Catalog}

/-- Whether the token of a bake is found set, at the check that comes after that many checks and
after these sheets were read. -/
abbrev Cancellation : Type := (checks : Nat) → (read : List String) → Bool

/-- The token that is never set. -/
def Cancellation.never : Cancellation := fun _ _ => false

/-- What a bake works with. -/
structure Baker (c : Catalog) where
  schema : ContainerSchema c
  source : SheetSource
  assets : AssetResolver
  cancelled : Cancellation
  /-- When the bake is saved. -/
  now : Timestamp

/-- A sheet that is baked: the name of its file and the keys whose rows are gone. -/
structure BakedSheet where
  fileName : String
  removed : List String

/-- How far a bake is. -/
structure BakeState (c : Catalog) where
  container : Container c
  /-- One for each table of the container. -/
  baked : List BakedSheet
  report : BakeReport
  read : List String

/-- A container and the report of the bake that made it. -/
structure BakeOutput (c : Catalog) where
  container : Container c
  report : BakeReport

namespace Baker

/-- The state before the first sheet. -/
def start (b : Baker c) : BakeState c := ⟨.empty c b.schema.naming, [], .empty, []⟩

/-- The file name of a sheet; `none` if it is skipped. -/
def fileFor (b : Baker c) (s : BakeState c) (position : Nat) (name : String) :
    Except BakeError (Option String) :=
  if Text.isBlank name then .error (.invalidSheetName name)
  else if SheetName.isPseudo name && !b.schema.allowPseudo then .ok none
  else
    match SheetName.fileName? name (some position) with
    | none => .error (.invalidSheetName name)
    | some file =>
      if s.baked.any fun p => p.fileName == file then .error (.duplicateSheet name)
      else .ok (some file)

/-- The state with a sheet left out. -/
def skip (s : BakeState c) (name : String) : BakeState c :=
  { s with report := { s.report with skipped := s.report.skipped ++ [name] } }

/-- The state with a sheet read, compared with the kept keys and added. -/
def addSheet (b : Baker c) (s : BakeState c) (d : SheetDecl c) (file : String)
    (kept : List String) : Except BakeError (BakeState c) :=
  match b.source d.name with
  | .error e => .error (.source e)
  | .ok raws =>
    let (table, issues) := Table.ingest (c.type d.id) d.name b.schema.naming (raws.getD [])
    let diff := (ExistingKeys.mk file kept).diff table.keys
    match s.container.insert ⟨d.id, table⟩ with
    | .error e => .error e
    | .ok container =>
      let report : SheetReport :=
        { name := d.name
          fileName := file
          rows := table.size
          created := diff.created.length
          updated := diff.updated.length
          removed := diff.removed.length
          issues := issues
          references := [] }
      .ok
        { container := container
          baked := s.baked ++ [⟨file, diff.removed⟩]
          report := { s.report with sheets := s.report.sheets ++ [report] }
          read := s.read ++ [d.name] }

/-- The process that adds sheets, the first of which is declared at `position`. -/
def addSheets (b : Baker c) (s : BakeState c) (position : Nat) :
    List (SheetDecl c) → StoreProcess (Except BakeError (BakeState c))
  | [] => .done (.ok s)
  | d :: rest =>
    if b.cancelled position s.read then .done (.error .cancelled)
    else
      match b.fileFor s position d.name with
      | .error e => .done (.error e)
      | .ok none => b.addSheets (skip s d.name) (position + 1) rest
      | .ok (some file) =>
        .rowKeys file fun
          | .error e => .done (.error e)
          | .ok kept =>
            match b.addSheet s d file kept with
            | .error e => .done (.error e)
            | .ok s => b.addSheets s (position + 1) rest

/-- Tables with their references linked, and the reports with what is not resolved. -/
def linkTables (linker : Linker) (reports : List SheetReport) :
    List (AnyTable c) → List (AnyTable c) × List SheetReport
  | [] => ([], reports)
  | t :: rest =>
    let (table, errors) := t.table.mapReferences linker
    let (tables, reports) :=
      linkTables linker (BakeReport.withReferences t.name errors reports) rest
    (⟨t.id, table⟩ :: tables, reports)

/-- The container with all references linked, and the report with what is not resolved. -/
def link (b : Baker c) (s : BakeState c) : BakeOutput c :=
  let (tables, reports) :=
    linkTables (s.container.linker b.assets) s.report.sheets s.container.tables.toList
  ⟨{ s.container with tables := tables.toArray }, { s.report with sheets := reports }⟩

/-- What is saved of a sheet. -/
def sheetPlan (t : AnyTable c) (p : BakedSheet) : SheetPlan :=
  ⟨t.name, p.fileName, t.recordName, p.removed, t.table.encode⟩

/-- What is saved of a container. -/
def plan (b : Baker c) (out : Container c) (baked : List BakedSheet) : SavePlan :=
  ⟨out.naming, b.now, List.zipWith sheetPlan out.tables.toList baked⟩

/-- The process after the last sheet: link, and save unless the bake is cancelled. -/
def finish (b : Baker c) (s : BakeState c) : StoreProcess (Except BakeError (BakeOutput c)) :=
  let out := b.link s
  if b.cancelled b.schema.sheets.length s.read then .done (.error .cancelled)
  else if s.baked.length ≠ out.container.size then
    .done (.error (.corrupt (.planCount s.baked.length out.container.size)))
  else .save (b.plan out.container s.baked) fun saved => .done (saved.map fun _ => out)

/-- The process of a bake. -/
def bake (b : Baker c) : StoreProcess (Except BakeError (BakeOutput c)) :=
  (b.addSheets b.start 0 b.schema.sheets).bind fun
    | .error e => .done (.error e)
    | .ok s => b.finish s

end Baker

end TypedSheets
