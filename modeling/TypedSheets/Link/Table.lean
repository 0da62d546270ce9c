import TypedSheets.Link.Linker
import TypedSheets.Property.Access
import TypedSheets.Property.Record
import TypedSheets.Property.Walk
import TypedSheets.Table.Basic

/-!
# Linking tables

The leaves of every row that may hold references are read, linked and written back. The rows are
taken in order, the leaves of a row in the order of the property tree.

* `Table.referenceSites` — the leaves of a row that may hold references
* `Table.linkRow` — a row with its references linked
* `Table.mapReferences` — a table with its references linked
-/

namespace TypedSheets

open PropertyNode (Site)

namespace Table

variable {t : TableType}

/-- Whether a node may hold references. -/
def mayHoldReferences {ρ : Type} (n : PropertyNode ρ) : Bool :=
  match n.descriptor with
  | some d => d.mayHoldReferences
  | none => false

/-- The leaves of a row that may hold references, each with its indexes. -/
def referenceSites (root : PropertyNode t.Row) (row : t.Row) : List (Site t.Row) :=
  (root.walk row).filter fun s => mayHoldReferences s.1

/-- The row with one leaf linked. A leaf that cannot be read or written back stays as it is. -/
def linkSite (linker : Linker) (sheet key : String) (row : t.Row) (s : Site t.Row) :
    t.Row × List ReferenceError :=
  match s.1.get row s.2 with
  | .error _ => (row, [])
  | .ok v =>
    let linked := linker.link ⟨sheet, key, s.1.path, s.2⟩ v
    if linked.changed then
      match s.1.set row s.2 linked.value with
      | .ok row => (row, linked.errors)
      | .error _ => (row, linked.errors)
    else (row, linked.errors)

/-- The row with leaves linked, one after the other. -/
def linkSites (linker : Linker) (sheet key : String) (row : t.Row) :
    List (Site t.Row) → t.Row × List ReferenceError
  | [] => (row, [])
  | s :: rest =>
    let (row, errors) := linkSite linker sheet key row s
    let (row, more) := linkSites linker sheet key row rest
    (row, errors ++ more)

/-- The row with its references linked. -/
def linkRow (linker : Linker) (root : PropertyNode t.Row) (sheet : String) (row : t.Row) :
    t.Row × List ReferenceError :=
  linkSites linker sheet (t.key row) row (referenceSites root row)

/-- The table with its references linked, and the references that are not resolved. -/
def mapReferences (linker : Linker) (table : Table t) : Table t × List ReferenceError :=
  let linked := table.rows.map (linkRow linker t.record.properties table.name)
  ({ table with rows := linked.map Prod.fst }, linked.toList.flatMap Prod.snd)

end Table

end TypedSheets
