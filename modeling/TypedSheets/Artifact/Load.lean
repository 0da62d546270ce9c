import TypedSheets.Artifact.Process
import TypedSheets.Container.Basic
import TypedSheets.Container.Schema

/-!
# Loading

A container is rebuilt from the manifest and the kept rows. The sheets keep their kept order, so
that row keys stay valid.

* `ContainerSchema.restoreSheet` — a kept sheet as a table
* `ContainerSchema.load` — the process that rebuilds the container
-/

namespace TypedSheets

variable {c : Catalog}

namespace ContainerSchema

/-- The declaration of a kept sheet, which has to have the same record type. -/
def declared (schema : ContainerSchema c) (s : SheetArtifact) :
    Except BakeError (SheetDecl c) :=
  match schema.find? s.name with
  | none => .error (.corrupt (.undeclared s.name))
  | some d =>
    if d.recordName ≠ s.record then .error (.corrupt (.otherRecord s.name s.record d.recordName))
    else .ok d

/-- The container with the table of a kept sheet. -/
def restoreSheet (b : Container c) (d : SheetDecl c) (name : String)
    (kept : List (String × List UInt8)) : Except BakeError (Container c) :=
  match Table.restore (c.type d.id) name kept with
  | .error e => .error (.ofRestore e)
  | .ok table => b.insert ⟨d.id, table⟩

/-- The process that adds kept sheets to a container, one after the other. -/
def loadSheets (schema : ContainerSchema c) (b : Container c) :
    List SheetArtifact → StoreProcess (Except BakeError (Container c))
  | [] => .done (.ok b)
  | s :: rest =>
    match schema.declared s with
    | .error e => .done (.error e)
    | .ok d =>
      .rows s.fileName s.keys fun
        | .error e => .done (.error e)
        | .ok kept =>
          match restoreSheet b d s.name kept with
          | .error e => .done (.error e)
          | .ok b => schema.loadSheets b rest

/-- The process that rebuilds the container of the last bake. A store without a manifest gives an
empty container. -/
def load (schema : ContainerSchema c) : StoreProcess (Except BakeError (Container c)) :=
  .manifest fun
    | .error e => .done (.error e)
    | .ok none => .done (.ok (.empty c schema.naming))
    | .ok (some m) => schema.loadSheets (.empty c m.naming) m.sheets

end ContainerSchema

end TypedSheets
