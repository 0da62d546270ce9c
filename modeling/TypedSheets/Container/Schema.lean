import TypedSheets.Catalog

/-!
# Declared sheets

* `SheetDecl` — a sheet and the record type of its rows
* `ContainerSchema` — the sheets in order, and what holds for all of them
-/

namespace TypedSheets

variable {c : Catalog}

/-- A declared sheet. -/
structure SheetDecl (c : Catalog) where
  name : String
  id : c.Id

namespace SheetDecl

/-- The name of the record type. -/
def recordName (d : SheetDecl c) : String := (c.type d.id).name

/-- The text of a declaration for diagnostics. -/
def debugText (d : SheetDecl c) : String :=
  "SheetDecl \x7b name: " ++ Text.quoted d.name ++ ", record: " ++ Text.quoted d.recordName ++
    " \x7d"

end SheetDecl

/-- The declared sheets in order, and what holds for all of them. -/
structure ContainerSchema (c : Catalog) where
  sheets : List (SheetDecl c)
  /-- The naming of records without one of their own. -/
  naming : Naming
  /-- Pseudo sheets are baked instead of being skipped. -/
  allowPseudo : Bool

namespace ContainerSchema

/-- The schema without sheets. -/
def empty (c : Catalog) : ContainerSchema c := ⟨[], .pascal, false⟩

/-- The first sheet of that name. -/
def find? (s : ContainerSchema c) (name : String) : Option (SheetDecl c) :=
  s.sheets.find? fun d => d.name == name

end ContainerSchema

end TypedSheets
