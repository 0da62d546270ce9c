import TypedSheets.Json.Reader
import TypedSheets.Settings.Environment
import TypedSheets.Settings.Toml.Document
import TypedSheets.Text.Basic
import TypedSheets.Workspace

/-!
# Settings of a bake

A settings file says where rows come from and where they go. Environment variables win over the
file, and the file over the defaults.

* `Setting.ofFile?` — the settings in a file
* `BakeSettings`, `BakeSettings.load?` — the settings of a bake
* `BakeSettings.workspace` — the workspace that they describe
-/

namespace TypedSheets

/-- The settings in a text of a format, which is named as the end of a file name. A byte order mark
in front does not count. -/
def Setting.ofText? (format text : String) : Option Setting :=
  let text := String.ofList (Text.dropMark text.toList)
  if format == "toml" then Toml.parse? text
  else if format == "json" then
    match Json.parse? text with
    | some (.object members) => some (.table (Setting.ofJsonMembers members))
    | _ => none
  else none

/-- The settings in the file of a path. The end of its name, which gives its format, may be left
out. -/
def Setting.ofFile? (files : FileNode) (path : String) : Option Setting :=
  let read (format path : String) : Option Setting := (files.file? path).bind (ofText? format)
  if files.isFile path then read (Path.extension path) path
  else do
    let base ← Path.entryPath? path
    let format ← ["toml", "json"].find? fun format => files.isFile (base ++ "." ++ format)
    read format (base ++ "." ++ format)

/-- The settings of a bake. -/
structure BakeSettings where
  /-- The file of the store. -/
  outputPath : String
  /-- The directory of the files with rows. -/
  sourceDir : String
  /-- The directory of the assets. -/
  assetRoot : Option String
  naming : Naming
  allowPseudo : Bool
  deriving DecidableEq

namespace BakeSettings

/-- The start of the names of environment variables that count, in lower case. -/
def variableMark : String := "sheetbake__"

/-- What holds where nothing else is said. -/
def defaults : Setting :=
  .table [("bake", .table
    [("allow_pseudo_sheets", .bool false), ("naming", .text Naming.pascal.name)])]

/-- The settings with those of a file laid over them. The keys on its top level are addresses. -/
def withFile (root file : Setting) : Setting :=
  (file.entries?.getD []).foldl (fun root e => root.putAt (.ofText e.1) e.2) root

/-- An optional text: null counts as missing. -/
def optionalText? : Option Setting → Option (Option String)
  | none | some .null => some none
  | some s => s.asText?.map some

/-- The settings of a bake from the settings that are given. -/
def ofParts? (outputPath sourceDir assetRoot naming allowPseudo : Option Setting) :
    Option BakeSettings := do
  return ⟨← outputPath.bind Setting.asText?, ← sourceDir.bind Setting.asText?,
    ← optionalText? assetRoot, ← naming.bind Setting.asNaming?, ← allowPseudo.bind Setting.asBool?⟩

/-- The settings of a bake in a tree of settings: a table, or a list of all of them in order. -/
def ofSetting? (root : Setting) : Option BakeSettings :=
  match root.entry? "bake" with
  | some (.table es) =>
    let given (key : String) : Option Setting := Setting.entry? (.table es) key
    ofParts? (given "output_path") (given "source_dir") (given "asset_root") (given "naming")
      (given "allow_pseudo_sheets")
  | some (.list (outputPath :: sourceDir :: assetRoot :: naming :: allowPseudo :: _)) =>
    ofParts? outputPath sourceDir assetRoot naming allowPseudo
  | _ => none

/-- The settings in a file, under environment variables. -/
def load? (files : FileNode) (path : String) (vars : Environment.Variables) :
    Option BakeSettings :=
  match Setting.ofFile? files path with
  | none => none
  | some file => ofSetting? (Environment.overlay variableMark (withFile defaults file) vars)

/-- The declared sheets under the settings. -/
def schema {c : Catalog} (s : BakeSettings) (declared : ContainerSchema c) : ContainerSchema c :=
  { declared with naming := s.naming, allowPseudo := s.allowPseudo }

/-- The workspace that the settings describe. -/
def workspace {c : Catalog} (s : BakeSettings) (files : FileNode)
    (declared : ContainerSchema c) : Except BakeError (Workspace c) :=
  Workspace.openStore
    { Workspace.ofFiles c files with
      schema := s.schema declared
      sourceChoice := .directory ⟨s.sourceDir⟩
      assetChoice :=
        match s.assetRoot with
        | some root => .directory root
        | none => .memory [] }
    s.outputPath

end BakeSettings

end TypedSheets
