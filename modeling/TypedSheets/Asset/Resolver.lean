import TypedSheets.Files.Tree
import TypedSheets.Reference

/-!
# Finding assets

A resolver finds the asset of a path, or the named item inside it.

* `AssetResolver` — a resolver
* `AssetResolver.none` — finds nothing
* `MemoryAssets` — registered paths and items
* `DirectoryAssets` — files below a directory
-/

namespace TypedSheets

/-- Finds the asset of a path, or an item inside it. -/
abbrev AssetResolver : Type := String → Option String → Option AssetHandle

/-- The resolver that finds nothing. -/
def AssetResolver.none : AssetResolver := fun _ _ => Option.none

/-- Registered assets: their paths, each with the names of its items. -/
abbrev MemoryAssets : Type := Entries String (List String)

namespace MemoryAssets

/-- Registers a path and items; items that are there already stay. -/
def register (assets : MemoryAssets) (path : String) (items : List String) : MemoryAssets :=
  let old := (Entries.get? compareText path assets).getD []
  Entries.insert compareText path (items.foldl (fun done s => insertKey compareText s done) old)
    assets

/-- The assets of a list of paths with items. -/
def ofList (assets : List (String × List String)) : MemoryAssets :=
  assets.foldl (fun done a => register done a.1 a.2) []

/-- Finds what is registered. -/
def resolver (assets : MemoryAssets) : AssetResolver := fun path sub =>
  match Entries.get? compareText path assets with
  | none => none
  | some items =>
    if sub.all fun s => items.contains s then some ⟨path, sub, "memory://" ++ path⟩ else none

end MemoryAssets

/-- Assets as files below a directory. -/
structure DirectoryAssets where
  files : FileNode
  root : String

namespace DirectoryAssets

/-- Whether a path goes up somewhere, with slashes of either kind. -/
def goesUp (path : String) : Bool :=
  (Text.splitBy (fun c => c == '/' || c == '\\') path.toList).any fun p => p == "..".toList

/-- The file in a directory whose stem is the name of an item. -/
def itemFile? (files : FileNode) (directory sub : String) : Option String :=
  match files.list? directory with
  | none => none
  | some names =>
    (names.map fun name => (name, Path.join directory name)).findSome? fun (name, path) =>
      if files.isFile path && Path.stem name == sub then some path else none

/-- Where an asset is. The items inside a file are not looked at; an item of a directory is a file
in it with that stem. -/
def location? (a : DirectoryAssets) (path : String) (sub : Option String) : Option String :=
  if path.isEmpty || goesUp path then none
  else
    let full := Path.join a.root path
    if a.files.isFile full then some full else sub.bind (itemFile? a.files full)

/-- Finds the files. -/
def resolver (a : DirectoryAssets) : AssetResolver := fun path sub =>
  (a.location? path sub).map fun location => ⟨path, sub, location⟩

end DirectoryAssets

end TypedSheets
