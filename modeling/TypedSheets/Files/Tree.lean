import TypedSheets.Entries
import TypedSheets.Text.Basic

/-!
# Paths, files and directories

A path is a text of parts between slashes. One that starts with a slash is absolute and stands for
itself wherever it is joined. Files are in a tree of directories, as it is seen at one moment. A
path is followed part by part from the root; every part but the last has to lead to a directory.

* `Path.join` — a path below another
* `Path.parts` — the parts of a path
* `Path.entryPath?` — the path up to its last name
* `Path.parent?` — the path without its last part
* `Path.stem`, `Path.extension` — a file name without its extension, and the extension
* `FileNode` — a file or a directory
* `FileNode.find?` — what a path leads to
* `FileNode.file?`, `FileNode.list?` — what is there
* `FileNode.write?`, `FileNode.makeDirectory?` — a file or a directory made, with those above it
-/

namespace TypedSheets.Path

/-- Whether a path starts at the root. -/
def isAbsolute (path : String) : Bool := path.toList.head? == some '/'

/-- A path below another. -/
def join (base path : String) : String :=
  if isAbsolute path || base.isEmpty then path
  else if base.toList.getLast? == some '/' then base ++ path
  else base ++ "/" ++ path

/-- The parts of a path between slashes, empty ones included. -/
def parts (path : String) : List String :=
  (Text.splitBy (· == '/') path.toList).map String.ofList

/-- The parts of a path that lead somewhere else. -/
def names (path : String) : List String := (parts path).filter fun p => p != "" && p != "."

/-- Whether the last part of a path is a name. -/
def endsInName (path : String) : Bool :=
  match (parts path).reverse with
  | last :: _ => last != "" && last != "." && last != ".."
  | [] => false

/-- The path up to its last name, without the slashes and single dots behind it. A path that ends in
a double dot and one without names have none. -/
def entryPath? (path : String) : Option String :=
  let kept := "/".intercalate
    ((parts path).reverse.dropWhile fun p => p == "" || p == ".").reverse
  if endsInName kept then some kept else none

/-- The path without its last part; the root and the empty path have none. -/
def parent? (path : String) : Option String :=
  match (names path).reverse with
  | [] => none
  | _ :: rest =>
    some ((if isAbsolute path then "/" else "") ++ "/".intercalate rest.reverse)

/-- A file name without its extension. A dot in front starts no extension. -/
def stem (name : String) : String :=
  let behind := (name.toList.reverse.takeWhile (· != '.')).length
  let front := name.toList.length - behind - 1
  if name == ".." || behind == name.toList.length || front == 0 then name
  else String.ofList (name.toList.take front)

/-- The end of the name of a file behind its last dot; empty if there is none. -/
def extension (path : String) : String :=
  match (names path).getLast? with
  | some name =>
    if stem name == name then "" else String.ofList (name.toList.drop ((stem name).length + 1))
  | none => ""

end TypedSheets.Path

namespace TypedSheets

/-- A file or a directory. -/
inductive FileNode where
  | file (text : String)
  /-- A file that holds no text. -/
  | binary
  | directory (entries : List (String × FileNode))

namespace FileNode

/-- The directory without entries. -/
def empty : FileNode := .directory []

/-- The entries of a directory. -/
def entries? : FileNode → Option (List (String × FileNode))
  | .directory es => some es
  | .file _ | .binary => none

/-- Follows the parts of a path; `above` are the directories over the node, the nearest first. -/
def follow? (above : List FileNode) (node : FileNode) : List String → Option FileNode
  | [] => some node
  | part :: rest =>
    match node.entries? with
    | none => none
    | some es =>
      if part == "" || part == "." then follow? above node rest
      else if part == ".." then
        match above with
        | [] => follow? [] node rest
        | up :: above => follow? above up rest
      else
        match Entries.get? compareText part es with
        | some child => follow? (node :: above) child rest
        | none => none

/-- What an absolute path leads to. -/
def find? (root : FileNode) (path : String) : Option FileNode :=
  follow? [] root (Path.parts path)

/-- The text of the file that a path leads to. -/
def file? (root : FileNode) (path : String) : Option String :=
  match root.find? path with
  | some (.file text) => some text
  | _ => none

/-- Whether a path leads to a file. -/
def isFile (root : FileNode) (path : String) : Bool :=
  (root.find? path).any fun node => node.entries?.isNone

/-- The names in the directory that a path leads to, sorted. -/
def list? (root : FileNode) (path : String) : Option (List String) :=
  match root.find? path with
  | some (.directory es) => some (es.map Prod.fst)
  | _ => none

/-- The names that a path goes through from the root, a double dot going back. -/
def normalNames (path : String) : List String :=
  ((Path.names path).foldl (fun done p => if p == ".." then done.drop 1 else p :: done) []).reverse

/-- The tree with a node at the end of names; missing directories are made. A file in the way, or
anything at the end that may not be replaced, refuses. -/
def put? (replace : FileNode → Bool) (new : FileNode) : List String → FileNode → Option FileNode
  | [], old => if replace old then some new else none
  | name :: rest, node =>
    match node.entries? with
    | none => none
    | some es =>
      let child :=
        match Entries.get? compareText name es with
        | some child => put? replace new rest child
        | none => putNew rest
      child.map fun child => .directory (Entries.insert compareText name child es)
where
  /-- The new node below directories that are made for it. -/
  putNew : List String → Option FileNode
    | [] => some new
    | name :: rest => (putNew rest).map fun child => .directory [(name, child)]

/-- The tree with a file, and with the directories above it. -/
def put (root : FileNode) (path : String) (new : FileNode) : Option FileNode :=
  put? (fun old => old.entries?.isNone) new (normalNames path) root

/-- The tree with a text file, and with the directories above it. -/
def write? (root : FileNode) (path text : String) : Option FileNode := root.put path (.file text)

/-- The tree with the directories that names go through, starting below `above`, the last first. -/
def makeDirectories? (root : FileNode) (above : List String) : List String → Option FileNode
  | [] => some root
  | name :: rest =>
    if name == ".." then makeDirectories? root (above.drop 1) rest
    else
      let here := name :: above
      match root.find? ("/".intercalate here.reverse) with
      | some (.directory _) => makeDirectories? root here rest
      | some _ => none
      | none =>
        match put? (fun _ => false) empty here.reverse root with
        | some root => makeDirectories? root here rest
        | none => none

/-- The tree with a directory, and with those above it. A file in the way refuses. -/
def makeDirectory? (root : FileNode) (path : String) : Option FileNode :=
  makeDirectories? root [] (Path.names path)

/-- The tree of files given by their paths; a file in the way of another leaves that one out. -/
def ofFiles (files : List (String × String)) : FileNode :=
  files.foldl (fun tree f => (tree.write? f.1 f.2).getD tree) empty

end FileNode

end TypedSheets
