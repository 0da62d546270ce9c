import TypedSheets.Number.Digits
import TypedSheets.Table.Binary

/-!
# Why a bake or a load fails

* `SourceError` — why a sheet cannot be read from its source
* `Corruption` — how kept data contradicts itself or the schema
* `BakeError` — the causes, with their wording where it is the library's own
-/

namespace TypedSheets

/-- Why a sheet cannot be read. -/
inductive SourceError where
  /-- The sheet does not have the form of a sheet. -/
  | unreadable (sheet reason : String)
  /-- A file is no JSON. -/
  | json
  /-- A file holds no text. -/
  | file
  deriving DecidableEq

/-- The wording of an error, for those that have words of their own. -/
def SourceError.message? : SourceError → Option String
  | .unreadable sheet reason => some ("sheet `" ++ sheet ++ "` is unreadable: " ++ reason)
  | .json | .file => none

/-- How kept data contradicts itself or the schema. -/
inductive Corruption where
  /-- A kept sheet is not declared. -/
  | undeclared (sheet : String)
  /-- A kept sheet holds records of another type than the one declared. -/
  | otherRecord (sheet baked declared : String)
  /-- A row that the manifest lists is missing. -/
  | missingRow (table key : String)
  /-- A row has another id than the key it is kept under. -/
  | otherId (sheet key id : String)
  /-- Two rows of a sheet have one id. -/
  | refused (e : TableError)
  /-- Not every table has its file and keys. -/
  | planCount (plans tables : Nat)
  deriving DecidableEq

/-- The wording of a contradiction. -/
def Corruption.message : Corruption → String
  | .undeclared sheet => "persisted sheet `" ++ sheet ++ "` is not declared"
  | .otherRecord sheet baked declared =>
    "sheet `" ++ sheet ++ "` was baked with `" ++ baked ++ "` records, now declared with `" ++
      declared ++ "`"
  | .missingRow table key => "`" ++ table ++ "` has no row `" ++ key ++ "`"
  | .otherId sheet key id => "sheet `" ++ sheet ++ "` row `" ++ key ++ "` holds id `" ++ id ++ "`"
  | .refused e => e.message
  | .planCount plans tables =>
    Number.natText plans ++ " save plans for " ++ Number.natText tables ++ " sheets"

/-- What a container has no room for. -/
inductive CapacityError where
  | sheets
  | rows (sheet : String) (count : Nat)
  deriving DecidableEq

/-- The greatest number of sheets in a container. -/
def maxSheets : Nat := 65536

/-- The wording of an error. -/
def CapacityError.message : CapacityError → String
  | .sheets => "more than " ++ Number.natText maxSheets ++ " sheets"
  | .rows sheet count => "sheet `" ++ sheet ++ "` has " ++ Number.natText count ++ " rows"

/-- Why a bake or a load fails. -/
inductive BakeError where
  | source (e : SourceError)
  | invalidSheetName (sheet : String)
  | duplicateSheet (sheet : String)
  | corrupt (c : Corruption)
  | capacity (e : CapacityError)
  | cancelled
  /-- A table of the store is missing where rows are needed, or has keys of another type. -/
  | table
  /-- Kept bytes are no value of their type. -/
  | undecodable
  /-- A directory cannot be made. -/
  | files
  /-- A file is no store. -/
  | database
  deriving DecidableEq

namespace BakeError

/-- The wording of an error, for those that have words of their own. -/
def message? : BakeError → Option String
  | .source e => e.message?.map fun m => "source error: " ++ m
  | .invalidSheetName sheet => some ("invalid sheet name `" ++ sheet ++ "`")
  | .duplicateSheet sheet => some ("sheet `" ++ sheet ++ "` is declared twice")
  | .corrupt c => some ("artifact store is inconsistent: " ++ c.message)
  | .capacity e => some ("container capacity exceeded: " ++ e.message)
  | .cancelled => some "bake cancelled before save"
  | .table | .undecodable | .files | .database => none

/-- Kept rows give no table. -/
def ofRestore : RestoreError → BakeError
  | .undecodable => .undecodable
  | .otherId sheet key id => .corrupt (.otherId sheet key id)
  | .refused e => .corrupt (.refused e)

end BakeError

end TypedSheets
