import TypedSheets.Cell.Error

/-!
# Why a property is out of reach

* `AccessError` — the causes, each with the path of the property
* `AccessError.name`, `AccessError.message` — the names of their kinds, and their wording
-/

namespace TypedSheets

/-- Why a property cannot be read or written. -/
inductive AccessError where
  /-- The property needs another number of indexes. -/
  | indexDepth (path : String) (expected found : Nat)
  /-- A collection has no element at an index. -/
  | outOfRange (path : String) (index length : Nat)
  /-- The property has no elements to count or take. -/
  | notACollection (path : String)
  /-- The property holds no value of its own. -/
  | notALeaf (path : String)
  /-- A value does not convert. -/
  | cell (path : String) (cause : CellError)
  deriving DecidableEq

namespace AccessError

/-- The name of the kind of an error. -/
def name : AccessError → String
  | .indexDepth .. => "IndexDepth"
  | .outOfRange .. => "OutOfRange"
  | .notACollection .. => "NotACollection"
  | .notALeaf .. => "NotALeaf"
  | .cell .. => "Cell"

/-- The wording of an error. -/
def message : AccessError → String
  | .indexDepth path expected found =>
    "`" ++ path ++ "` needs " ++ Number.natText expected ++ " indexes, got " ++
      Number.natText found
  | .outOfRange path index length =>
    "`" ++ path ++ "` has no element " ++ Number.natText index ++ ", it holds " ++
      Number.natText length
  | .notACollection path => "`" ++ path ++ "` is not a collection"
  | .notALeaf path => "`" ++ path ++ "` is not a leaf"
  | .cell path cause => "`" ++ path ++ "`: " ++ cause.message

/-- The same cause at another path. -/
def withPath (path : String) : AccessError → AccessError
  | .indexDepth _ expected found => .indexDepth path expected found
  | .outOfRange _ index length => .outOfRange path index length
  | .notACollection _ => .notACollection path
  | .notALeaf _ => .notALeaf path
  | .cell _ cause => .cell path cause

end AccessError

end TypedSheets
