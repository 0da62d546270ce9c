import TypedSheets.Cell.Value

/-!
# Why a cell does not convert

* `CellError` — the causes
* `CellError.name`, `CellError.message` — the names of their kinds, and their wording
-/

namespace TypedSheets

/-- Why a value is not a value of a cell type. -/
inductive CellError where
  /-- A value of one kind stands where another is due. -/
  | mismatch (expected found : String)
  /-- A text does not read as the type. -/
  | parse (input expected : String)
  /-- A number lies outside the range of the type. -/
  | outOfRange (value expected : String)
  /-- The cause lies in a member of a record. -/
  | field (name : String) (cause : CellError)
  /-- A converter refuses a value in its own words. -/
  | custom (text : String)
  deriving DecidableEq

namespace CellError

/-- The name of the kind of an error. -/
def name : CellError → String
  | .mismatch .. => "Mismatch"
  | .parse .. => "Parse"
  | .outOfRange .. => "OutOfRange"
  | .field .. => "Field"
  | .custom .. => "Custom"

/-- The wording of an error. -/
def message : CellError → String
  | .mismatch expected found => "expected " ++ expected ++ ", found " ++ found
  | .parse input expected => "cannot parse `" ++ input ++ "` as " ++ expected
  | .outOfRange value expected => value ++ " is out of range for " ++ expected
  | .field name cause => name ++ ": " ++ cause.message
  | .custom text => text

/-- A value of another kind was found. -/
def unexpected (expected : String) (found : Value) : CellError := .mismatch expected found.kind

end CellError

/-- The row of a JSON object; anything else is refused. -/
def RawRow.ofJson (json : Json) : Except CellError RawRow :=
  match Value.ofJson json with
  | .record row => .ok row
  | other => .error (.unexpected "object" other)

end TypedSheets
