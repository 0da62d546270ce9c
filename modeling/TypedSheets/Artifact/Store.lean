import TypedSheets.Artifact.Manifest
import TypedSheets.Container.Error
import TypedSheets.Entries

/-!
# Artifact stores

A store keeps the bytes of baked rows in named tables: one for the manifest, and one for the rows
of each sheet. Each operation here is one transaction: it sees one state of the store, and a save
changes everything or nothing.

* `KeptTable` — a table of bytes by key
* `ArtifactStore` — the tables by name
* `ArtifactStore.manifest`, `ArtifactStore.rowKeys`, `ArtifactStore.row`, `ArtifactStore.rows`
* `SavePlan`, `ArtifactStore.save`
-/

namespace TypedSheets

/-- The bytes that a table keeps by key. -/
abbrev KeptRows : Type := Entries String (List UInt8)

/-- A table of a store. -/
inductive KeptTable where
  | rows (entries : KeptRows)
  /-- The keys are of another type, so the table cannot be opened for rows. -/
  | foreign

/-- The tables of a store by name. -/
structure ArtifactStore where
  tables : Entries String KeptTable

/-- What a save writes of a sheet. -/
structure SheetPlan where
  name : String
  fileName : String
  record : String
  /-- The keys whose rows are gone. -/
  removed : List String
  rows : List (String × List UInt8)

/-- What a save writes. -/
structure SavePlan where
  naming : Naming
  bakedAt : Timestamp
  sheets : List SheetPlan

/-- What the manifest says of a sheet. -/
def SheetPlan.artifact (s : SheetPlan) : SheetArtifact :=
  ⟨s.name, s.fileName, s.record, s.rows.map Prod.fst⟩

/-- The manifest of a save. -/
def SavePlan.manifest (p : SavePlan) : Manifest :=
  ⟨p.naming, p.bakedAt, p.sheets.map SheetPlan.artifact⟩

namespace ArtifactStore

/-- The store without tables. -/
def empty : ArtifactStore := ⟨[]⟩

/-- The table of the manifest. -/
def manifestTable : String := "container"

/-- The key of the manifest. -/
def manifestKey : String := "manifest"

/-- The start of the name of a table of rows. -/
def rowsMark : String := "rows/"

/-- The table of the rows of a sheet. -/
def rowsTable (file : String) : String := rowsMark ++ file

/-- Whether a name is that of a table of rows. -/
def isRowsTable (name : String) : Bool := rowsMark.toList.isPrefixOf name.toList

/-- The table of that name. -/
def table? (s : ArtifactStore) (name : String) : Option KeptTable :=
  Entries.get? compareText name s.tables

/-- The entries of a table; a table that is missing has none. -/
def entries (s : ArtifactStore) (name : String) : Except BakeError KeptRows :=
  match s.table? name with
  | none => .ok []
  | some (.rows es) => .ok es
  | some .foreign => .error .table

/-- The store with another table of that name. -/
def setTable (s : ArtifactStore) (name : String) (t : KeptTable) : ArtifactStore :=
  ⟨Entries.insert compareText name t s.tables⟩

/-- The store without the table of that name. -/
def dropTable (s : ArtifactStore) (name : String) : ArtifactStore :=
  ⟨Entries.erase compareText name s.tables⟩

theorem table?_setTable (s : ArtifactStore) (name other : String) (t : KeptTable) :
    (s.setTable name t).table? other = if other = name then some t else s.table? other := by
  simp only [table?, setTable, Entries.get?_insert, beq_iff_eq, compareText_eq_iff]

/-- The store with other entries in a table. -/
def setEntries (s : ArtifactStore) (name : String) (es : KeptRows) : ArtifactStore :=
  s.setTable name (.rows es)

/-- The manifest of the last save. -/
def manifest (s : ArtifactStore) : Except BakeError (Option Manifest) :=
  match s.entries manifestTable with
  | .error e => .error e
  | .ok es =>
    match Entries.get? compareText manifestKey es with
    | none => .ok none
    | some bytes =>
      match Manifest.decode? bytes with
      | some m => .ok (some m)
      | none => .error .undecodable

/-- The keys of the kept rows of a sheet, sorted. -/
def rowKeys (s : ArtifactStore) (file : String) : Except BakeError (List String) :=
  (s.entries (rowsTable file)).map fun es => es.map Prod.fst

/-- The bytes of a kept row. -/
def row (s : ArtifactStore) (file key : String) : Except BakeError (Option (List UInt8)) :=
  (s.entries (rowsTable file)).map (Entries.get? compareText key)

/-- The bytes of the rows of these keys in a table. -/
def rowsIn (table : String) (es : KeptRows) :
    List String → Except BakeError (List (String × List UInt8))
  | [] => .ok []
  | key :: rest =>
    match Entries.get? compareText key es with
    | none => .error (.corrupt (.missingRow table key))
    | some bytes =>
      match rowsIn table es rest with
      | .error e => .error e
      | .ok rows => .ok ((key, bytes) :: rows)

/-- The bytes of the rows of these keys. Without keys no table is needed. -/
def rows (s : ArtifactStore) (file : String) (keys : List String) :
    Except BakeError (List (String × List UInt8)) :=
  if keys.isEmpty then .ok []
  else
    match s.table? (rowsTable file) with
    | some (.rows es) => rowsIn (rowsTable file) es keys
    | _ => .error .table

/-- The entries with rows removed and others written. -/
def updated (es : KeptRows) (removed : List String) (rows : List (String × List UInt8)) :
    KeptRows :=
  rows.foldl (fun es r => Entries.insert compareText r.1 r.2 es)
    (removed.foldl (fun es key => Entries.erase compareText key es) es)

/-- The store with the rows of sheets written. -/
def writeSheets (s : ArtifactStore) : List SheetPlan → Except BakeError ArtifactStore
  | [] => .ok s
  | p :: rest =>
    match s.entries (rowsTable p.fileName) with
    | .error e => .error e
    | .ok es =>
      (s.setEntries (rowsTable p.fileName) (updated es p.removed p.rows)).writeSheets rest

/-- The store without tables of rows other than these. -/
def dropOthers (s : ArtifactStore) (live : List String) : ArtifactStore :=
  ⟨s.tables.filter fun t => !isRowsTable t.1 || live.contains t.1⟩

/-- The store with another manifest. -/
def writeManifest (s : ArtifactStore) (m : Manifest) : Except BakeError ArtifactStore :=
  (s.entries manifestTable).map fun es =>
    s.setEntries manifestTable (Entries.insert compareText manifestKey m.encode es)

/-- The store after a save: the rows of every sheet, no rows of other sheets, and the manifest. If
a part fails nothing is saved. -/
def save (s : ArtifactStore) (p : SavePlan) : Except BakeError ArtifactStore :=
  match s.writeSheets p.sheets with
  | .error e => .error e
  | .ok s =>
    (s.dropOthers (p.sheets.map fun q => rowsTable q.fileName)).writeManifest p.manifest

end ArtifactStore

end TypedSheets
