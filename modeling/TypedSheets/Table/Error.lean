/-!
# Why a table refuses

* `TableError` — the causes
* `TableError.name`, `TableError.message` — the names of their kinds, and their wording
-/

namespace TypedSheets

/-- Why a table, or a set of tables, refuses what it is asked. -/
inductive TableError where
  /-- Two rows have one id. -/
  | duplicateId (sheet id : String)
  /-- There is no row behind a handle. -/
  | invalidHandle
  /-- No row has the id. -/
  | notFound (sheet id : String)
  /-- There is no sheet of that name. -/
  | sheetMissing (sheet : String)
  /-- A sheet holds rows of another record type. -/
  | typeMismatch (sheet expected found : String)
  /-- The rows of a sheet may not be replaced. -/
  | immutable (sheet : String)
  /-- Nothing is loaded. -/
  | notInitialized
  /-- A row has another id than the one it is to be kept under. -/
  | idMismatch (expected found : String)
  deriving DecidableEq

/-- The name of the kind of an error. -/
def TableError.name : TableError → String
  | .duplicateId .. => "DuplicateId"
  | .invalidHandle => "InvalidHandle"
  | .notFound .. => "NotFound"
  | .sheetMissing .. => "SheetMissing"
  | .typeMismatch .. => "TypeMismatch"
  | .immutable .. => "Immutable"
  | .notInitialized => "NotInitialized"
  | .idMismatch .. => "IdMismatch"

/-- The wording of an error. -/
def TableError.message : TableError → String
  | .duplicateId sheet id => "sheet `" ++ sheet ++ "` has two rows with id `" ++ id ++ "`"
  | .invalidHandle => "row handle is invalid"
  | .notFound sheet id => "sheet `" ++ sheet ++ "` has no row with id `" ++ id ++ "`"
  | .sheetMissing sheet => "container has no sheet `" ++ sheet ++ "`"
  | .typeMismatch sheet expected found =>
    "sheet `" ++ sheet ++ "` holds `" ++ found ++ "` records, not `" ++ expected ++ "`"
  | .immutable sheet => "sheet `" ++ sheet ++ "` holds records that are not mutable"
  | .notInitialized => "data store is not initialized"
  | .idMismatch expected found =>
    "row id `" ++ found ++ "` does not match the id `" ++ expected ++ "` it is stored under"

end TypedSheets
