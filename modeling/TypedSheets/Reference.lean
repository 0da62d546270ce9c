import TypedSheets.RowKey
import TypedSheets.Text.Basic
import TypedSheets.Text.Escaped

/-!
# References

A cell may refer to a row of a sheet, by the text of its id, or to an asset outside the sheets, by
a path. Both are found when a container is linked; until then a reference is unresolved.

* `SheetRef` — a reference to a row: the id key and, once linked, the place of the row
* `AssetRef` — a reference to an asset: the path, perhaps the name of an item in it, and, once
  linked, the handle of the asset
* `AssetRef.parse`, `AssetRef.text` — the written form `path[item]`
-/

namespace TypedSheets

/-- A reference to a row by the text of its id. -/
structure SheetRef where
  key : String
  resolved : Option RowKey
  deriving DecidableEq

namespace SheetRef

/-- The reference to nothing. -/
def empty : SheetRef := ⟨"", none⟩

/-- An unresolved reference to the row of that id; white space around the id is dropped. -/
def ofKey (key : String) : SheetRef := ⟨Text.trim key, none⟩

/-- Whether the reference is to nothing. -/
def isEmpty (r : SheetRef) : Bool := r.key.isEmpty

/-- References are ordered by key, and unresolved ones come first. -/
def cmp (a b : SheetRef) : Ordering :=
  (compare a.key b.key).then <|
    match a.resolved, b.resolved with
    | none, none => .eq
    | none, some _ => .lt
    | some _, none => .gt
    | some k, some l => k.cmp l

/-- The text of a reference for diagnostics. -/
def debugText (r : SheetRef) (target : String) : String :=
  let resolved :=
    match r.resolved with
    | none => "None"
    | some k => "Some(" ++ k.debugText ++ ")"
  "SheetRef \x7b target: " ++ Text.quoted target ++ ", key: " ++ Text.quoted r.key ++
    ", resolved: " ++ resolved ++ " \x7d"

end SheetRef

/-- Where an asset was found. -/
structure AssetHandle where
  path : String
  sub : Option String
  location : String
  deriving DecidableEq

/-- A reference to an asset by path, perhaps to a named item inside it. -/
structure AssetRef where
  path : String
  sub : Option String
  handle : Option AssetHandle
  deriving DecidableEq

namespace AssetRef

/-- The reference to nothing. -/
def empty : AssetRef := ⟨"", none, none⟩

/-- An unresolved reference; white space around path and item is dropped. -/
def of (path : String) (sub : Option String) : AssetRef := ⟨Text.trim path, sub.map Text.trim, none⟩

/-- Whether the reference is to nothing. -/
def isEmpty (a : AssetRef) : Bool := a.path.isEmpty

/-- The parts of a text before and after its last occurrence of a character. -/
def splitLast? (sep : Char) (s : List Char) : Option (List Char × List Char) :=
  let after := (s.reverse.takeWhile (· != sep)).reverse
  if after.length < s.length then some (s.take (s.length - after.length - 1), after) else none

/-- The parts of `path[item]`, if the text has that form and the item is not blank. -/
def parts? (s : List Char) : Option (List Char × List Char) :=
  match s.reverse with
  | ']' :: front =>
    match splitLast? '[' front.reverse with
    | some (path, sub) => if sub.all Text.isBlankChar then none else some (path, sub)
    | none => none
  | _ => none

/-- Reads `path` or `path[item]`. -/
def parse (raw : String) : AssetRef :=
  match parts? (Text.trimChars raw.toList) with
  | some (path, sub) => of (String.ofList path) (some (String.ofList sub))
  | none => of (Text.trim raw) none

/-- The written form. -/
def text (a : AssetRef) : String :=
  match a.sub with
  | some sub => a.path ++ "[" ++ sub ++ "]"
  | none => a.path

/-- Asset references are ordered by path, item and location. -/
def cmp (a b : AssetRef) : Ordering :=
  let optional (x y : Option String) : Ordering :=
    match x, y with
    | none, none => .eq
    | none, some _ => .lt
    | some _, none => .gt
    | some s, some t => compare s t
  (compare a.path b.path).then <| (optional a.sub b.sub).then <|
    match a.handle, b.handle with
    | none, none => .eq
    | none, some _ => .lt
    | some _, none => .gt
    | some h, some k =>
      (compare h.path k.path).then <| (optional h.sub k.sub).then (compare h.location k.location)

end AssetRef

end TypedSheets
