import TypedSheets.Number.Digits

/-!
# Unresolved references

* `ReferenceSite` — where a reference stands
* `ReferenceError` — a reference that could not be resolved
* `ReferenceError.name`, `ReferenceError.message` — the name of its kind, and the wording
-/

namespace TypedSheets

/-- Where a reference stands. -/
structure ReferenceSite where
  sheet : String
  /-- The key of the row. -/
  row : String
  /-- The path of the property. -/
  path : String
  indexes : List Nat
  deriving DecidableEq

/-- A reference that could not be resolved. -/
inductive ReferenceError where
  /-- No row of the target type has the key. -/
  | notFound (site : ReferenceSite) (target key : String)
  /-- The asset is nowhere. -/
  | assetMissing (site : ReferenceSite) (asset : String)
  deriving DecidableEq

/-- The name of the kind of an error. -/
def ReferenceError.name : ReferenceError → String
  | .notFound .. => "NotFound"
  | .assetMissing .. => "AssetMissing"

/-- The text of a site. -/
def ReferenceSite.text (s : ReferenceSite) : String :=
  "sheet `" ++ s.sheet ++ "` row `" ++ s.row ++ "` field `" ++ s.path ++ "` at [" ++
    ", ".intercalate (s.indexes.map Number.natText) ++ "]"

/-- The wording of an error. -/
def ReferenceError.message : ReferenceError → String
  | .notFound site target key =>
    site.text ++ ": no `" ++ target ++ "` row with id `" ++ key ++ "`"
  | .assetMissing site asset => site.text ++ ": asset `" ++ asset ++ "` is missing"

end TypedSheets
