import TypedSheets.Asset.Resolver
import TypedSheets.Cell.Value
import TypedSheets.Link.Error

/-!
# Linking values

A linker looks up every reference in a value. What is found becomes the resolution of the
reference; what is not found leaves it unresolved and is reported.

* `Linker` — how rows and assets are looked up
* `Linked` — a value after linking, the errors, and whether anything changed
* `Linker.link` — links every reference in a value
-/

namespace TypedSheets

/-- How rows and assets are looked up. -/
structure Linker where
  row : (target key : String) → Option RowKey
  asset : AssetResolver

/-- The outcome of linking something. -/
structure Linked (α : Type) where
  value : α
  errors : List ReferenceError
  changed : Bool

/-- What a change of the value makes of an outcome. -/
def Linked.map {α β : Type} (f : α → β) (l : Linked α) : Linked β :=
  ⟨f l.value, l.errors, l.changed⟩

/-- Two outcomes one after the other. -/
def Linked.both {α β γ : Type} (f : α → β → γ) (a : Linked α) (b : Linked β) : Linked γ :=
  ⟨f a.value b.value, a.errors ++ b.errors, a.changed || b.changed⟩

/-- The outcome of linking nothing. -/
def Linked.same {α : Type} (x : α) : Linked α := ⟨x, [], false⟩

namespace Linker

/-- Links a reference to a row; one to nothing is unresolved without an error. -/
def linkRow (l : Linker) (site : ReferenceSite) (r : TargetRef) : Linked TargetRef :=
  let found := if r.ref.isEmpty then none else l.row r.target r.ref.key
  { value := { r with ref := { r.ref with resolved := found } }
    errors := if r.ref.isEmpty || found.isSome then [] else [.notFound site r.target r.ref.key]
    changed := decide (r.ref.resolved ≠ found) }

/-- Links a reference to an asset; one to nothing stays as it is. -/
def linkAsset (l : Linker) (site : ReferenceSite) (a : AssetRef) : Linked AssetRef :=
  if a.isEmpty then .same a
  else
    let found := l.asset a.path a.sub
    { value := { a with handle := found }
      errors := if found.isSome then [] else [.assetMissing site a.text]
      changed := decide (a.handle ≠ found) }

mutual

/-- Links every reference in a value. -/
def link (l : Linker) (site : ReferenceSite) : Value → Linked Value
  | .sheetRef r => (l.linkRow site r).map .sheetRef
  | .assetRef a => (l.linkAsset site a).map .assetRef
  | .list items => (l.linkItems site items).map .list
  | .map entries => (l.linkEntries site entries).map .map
  | .record cells => (l.linkCells site cells).map .record
  | .null => .same .null
  | .bool b => .same (.bool b)
  | .int i => .same (.int i)
  | .float d => .same (.float d)
  | .text s => .same (.text s)

/-- Links the items of a list, in order. -/
def linkItems (l : Linker) (site : ReferenceSite) : List Value → Linked (List Value)
  | [] => .same []
  | v :: rest => (l.link site v).both (· :: ·) (l.linkItems site rest)

/-- Links the entries of a map, each key before its value. -/
def linkEntries (l : Linker) (site : ReferenceSite) :
    List (Value × Value) → Linked (List (Value × Value))
  | [] => .same []
  | (k, v) :: rest =>
    ((l.link site k).both Prod.mk (l.link site v)).both (· :: ·) (l.linkEntries site rest)

/-- Links the cells of a row, in the order of their names. -/
def linkCells (l : Linker) (site : ReferenceSite) :
    List (String × Value) → Linked (List (String × Value))
  | [] => .same []
  | (name, v) :: rest =>
    ((l.link site v).map (Prod.mk name)).both (· :: ·) (l.linkCells site rest)

end

end Linker

end TypedSheets
