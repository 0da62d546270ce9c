import TypedSheets.Cell.Error
import TypedSheets.Container.Error
import TypedSheets.Files.Tree
import TypedSheets.Json.Reader
import TypedSheets.SheetName

/-!
# Sources of raw rows

A source gives the raw rows of a sheet, or says that it has no such sheet.

* `SheetSource` — a source
* `rowsOfJson` — the raw rows of a JSON array
* `MemorySource` — sheets held in memory
* `DirectorySource` — one JSON file per sheet
-/

namespace TypedSheets

/-- Gives the raw rows of a sheet; `none` if it has no such sheet. -/
abbrev SheetSource : Type := String → Except SourceError (Option (List RawRow))

/-- The raw rows of the items of an array; the first that is no row is an error. -/
def rowsOfItems (sheet : String) : List Json → Except SourceError (List RawRow)
  | [] => .ok []
  | item :: rest =>
    match RawRow.ofJson item with
    | .error e => .error (.unreadable sheet e.message)
    | .ok row =>
      match rowsOfItems sheet rest with
      | .error e => .error e
      | .ok rows => .ok (row :: rows)

/-- The raw rows of a JSON array. -/
def rowsOfJson (sheet : String) : Json → Except SourceError (List RawRow)
  | .array items => rowsOfItems sheet items
  | _ => .error (.unreadable sheet "expected an array of rows")

/-- Sheets held in memory, by name. -/
abbrev MemorySource : Type := Entries String (List RawRow)

namespace MemorySource

/-- The sheets of the members of an object. -/
def ofMembers : List (String × Json) → Except SourceError MemorySource
  | [] => .ok []
  | (sheet, rows) :: rest =>
    match rowsOfJson sheet rows with
    | .error e => .error e
    | .ok rows =>
      match ofMembers rest with
      | .error e => .error e
      | .ok source => .ok (Entries.insert compareText sheet rows source)

/-- The sheets of a JSON object. -/
def ofJson : Json → Except SourceError MemorySource
  | .object members => ofMembers members
  | _ => .error (.unreadable "" "expected an object of sheets")

/-- The raw rows of a sheet. -/
def rows? (m : MemorySource) (sheet : String) : Option (List RawRow) :=
  Entries.get? compareText sheet m

/-- The source with other raw rows in a sheet. -/
def insert (m : MemorySource) (sheet : String) (rows : List RawRow) : MemorySource :=
  Entries.insert compareText sheet rows m

/-- The source without a sheet. -/
def erase (m : MemorySource) (sheet : String) : MemorySource := Entries.erase compareText sheet m

/-- Gives the sheets. -/
def source (m : MemorySource) : SheetSource := fun sheet => .ok (m.rows? sheet)

end MemorySource

/-- One JSON file per sheet, in a directory. -/
structure DirectorySource where
  root : String

namespace DirectorySource

/-- The path of the file of a sheet. -/
def path? (d : DirectorySource) (sheet : String) : Option String :=
  (SheetName.fileName? sheet none).map fun file => Path.join d.root (file ++ ".json")

/-- The raw rows in a text. -/
def rowsOfText (sheet text : String) : Except SourceError (List RawRow) :=
  match Json.parse? text with
  | none => .error .json
  | some json => rowsOfJson sheet json

/-- Reads the files. A sheet without a file is missing. -/
def source (d : DirectorySource) (files : FileNode) : SheetSource := fun sheet =>
  match d.path? sheet with
  | none => .ok none
  | some path =>
    if !files.isFile path then .ok none
    else
      match files.file? path with
      | none => .error .file
      | some text => (rowsOfText sheet text).map some

end DirectorySource

end TypedSheets
