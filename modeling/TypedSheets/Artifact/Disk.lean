import TypedSheets.Artifact.Store
import TypedSheets.Files.Tree

/-!
# Stores in files

A disk holds files, and in some of them artifact stores. A store that is opened anew holds what was
kept in it before.

* `Disk` — the files and the stores in them
* `Disk.openStore` — the store in a file, which may be new
* `Disk.keep` — the disk with a store changed
-/

namespace TypedSheets

/-- The names that a path goes through, as one text. -/
def Path.normal (path : String) : String := "/".intercalate (FileNode.normalNames path)

/-- Files, and the stores in them by the names of their paths. -/
structure Disk where
  files : FileNode
  stores : Entries String ArtifactStore

namespace Disk

/-- The disk with these files and no store. -/
def ofFiles (files : FileNode) : Disk := ⟨files, []⟩

/-- The store in a file that was opened before. -/
def store? (d : Disk) (path : String) : Option ArtifactStore :=
  Entries.get? compareText (Path.normal path) d.stores

/-- The disk with a store in a file. -/
def keep (d : Disk) (path : String) (s : ArtifactStore) : Disk :=
  { d with stores := Entries.insert compareText (Path.normal path) s d.stores }

/-- The disk with a new store in a file that is empty or missing. -/
def newStore (d : Disk) (path : String) : Except BakeError (ArtifactStore × Disk) :=
  match d.files.put path .binary with
  | some files => .ok (.empty, ({ d with files := files } : Disk).keep path .empty)
  | none => .error .database

/-- The store in a file, and the disk after it is opened. Missing directories are made first, and a
missing or empty file becomes a store. -/
def openStore (d : Disk) (path : String) : Except BakeError (ArtifactStore × Disk) :=
  match d.files.makeDirectory? ((Path.parent? path).getD "") with
  | none => .error .files
  | some files =>
    let d : Disk := { d with files := files }
    match d.files.find? path with
    | some (.directory _) => .error .database
    | some (.file text) => if text.isEmpty then d.newStore path else .error .database
    | some .binary =>
      match d.store? path with
      | some s => .ok (s, d)
      | none => .error .database
    | none => if Path.endsInName path then d.newStore path else .error .database

end Disk

end TypedSheets
