import TypedSheets.Artifact.Disk
import TypedSheets.Artifact.Load
import TypedSheets.Bake.Run
import TypedSheets.DataStore

/-!
# Workspaces

A workspace is what one works with between bakes: files, a source of rows, assets, the declared
sheets, a store, and the container of the last bake or load until a data store takes it over.

* `Workspace` — the parts
* `Workspace.source`, `Workspace.assets`, `Workspace.store` — what is in use
* `Workspace.openStore`, `Workspace.bake`, `Workspace.load`, `Workspace.insert`, `Workspace.serve`
-/

namespace TypedSheets

variable {c : Catalog}

/-- Where rows come from. -/
inductive SourceChoice where
  | memory (m : MemorySource)
  | directory (d : DirectorySource)

/-- Where assets are found. -/
inductive AssetChoice where
  | memory (m : MemoryAssets)
  | directory (root : String)

/-- What one works with between bakes. -/
structure Workspace (c : Catalog) where
  disk : Disk
  sourceChoice : SourceChoice
  assetChoice : AssetChoice
  schema : ContainerSchema c
  /-- The store in memory. -/
  memory : ArtifactStore
  /-- The file of the store in use; without one it is the store in memory. -/
  storePath : Option String
  container : Option (Container c)
  data : DataStore c

namespace Workspace

/-- The workspace with files and nothing else. -/
def ofFiles (c : Catalog) (files : FileNode) : Workspace c where
  disk := .ofFiles files
  sourceChoice := .memory []
  assetChoice := .memory []
  schema := .empty c
  memory := .empty
  storePath := none
  container := none
  data := .empty c

/-- The source in use. -/
def source (w : Workspace c) : SheetSource :=
  match w.sourceChoice with
  | .memory m => m.source
  | .directory d => d.source w.disk.files

/-- The assets in use. -/
def assets (w : Workspace c) : AssetResolver :=
  match w.assetChoice with
  | .memory m => m.resolver
  | .directory root => (DirectoryAssets.mk w.disk.files root).resolver

/-- The store in use. -/
def store (w : Workspace c) : ArtifactStore :=
  match w.storePath with
  | none => w.memory
  | some path => (w.disk.store? path).getD .empty

/-- The workspace with the store in use changed. -/
def withStore (w : Workspace c) (s : ArtifactStore) : Workspace c :=
  match w.storePath with
  | none => { w with memory := s }
  | some path => { w with disk := w.disk.keep path s }

/-- The workspace with the store in a file in use. -/
def openStore (w : Workspace c) (path : String) : Except BakeError (Workspace c) :=
  match w.disk.openStore path with
  | .ok (_, disk) => .ok { w with disk := disk, storePath := some path }
  | .error e => .error e

/-- What a bake works with. -/
def baker (w : Workspace c) (cancelled : Cancellation) : Baker c :=
  ⟨w.schema, w.source, w.assets, cancelled, .epoch⟩

/-- Bakes. What a bake makes is the container from then on; one that fails leaves it. -/
def bake (w : Workspace c) (cancelled : Cancellation) :
    Workspace c × Except BakeError (BakeOutput c) :=
  let (out, s) := (w.baker cancelled).bake.run w.store
  let w := w.withStore s
  match out with
  | .ok out => ({ w with container := some out.container }, .ok out)
  | .error e => (w, .error e)

/-- Loads the container of the last bake. -/
def load (w : Workspace c) : Workspace c × Except BakeError (Container c) :=
  match (w.schema.load.run w.store).1 with
  | .ok b => ({ w with container := some b }, .ok b)
  | .error e => (w, .error e)

/-- Adds tables to the container, up to the first that is refused; without a container to a new
one. -/
def insert (w : Workspace c) (tables : List (AnyTable c)) :
    Workspace c × Container c × Option BakeError :=
  let (b, e) := (w.container.getD (.empty c .pascal)).insertEach tables
  ({ w with container := some b }, b, e)

/-- Moves the container into the data store. -/
def serve (w : Workspace c) (b : Container c) : Workspace c × Except TableError Unit :=
  let (data, out) := DataStore.serve b
  ({ w with container := none, data := data }, out)

end Workspace

end TypedSheets
