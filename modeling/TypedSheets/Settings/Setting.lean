import TypedSheets.Entries
import TypedSheets.Json.Basic
import TypedSheets.Naming
import TypedSheets.Number.Decimal
import TypedSheets.Number.Integer

/-!
# Settings

A setting is a scalar, a list, or a table of settings. Settings from several places are laid over
each other: a table is merged with the table it meets, and anything else replaces what was there.

* `Setting` — a setting
* `Setting.overlaid` — a setting with another one laid over it
* `Setting.asText?`, `Setting.asBool?`, `Setting.asNaming?` — what a setting says where that is due
-/

namespace TypedSheets

/-- A setting. -/
inductive Setting where
  | null
  | bool (b : Bool)
  | int (i : Int)
  | float (d : Number.Double)
  | text (s : String)
  | list (items : List Setting)
  | table (entries : List (String × Setting))

instance : Inhabited Setting := ⟨.null⟩

namespace Setting

/-- The entries of a table. -/
def entries? : Setting → Option (List (String × Setting))
  | .table es => some es
  | _ => none

/-- The setting of a key in a table. -/
def entry? (s : Setting) (key : String) : Option Setting :=
  s.entries?.bind (Entries.get? compareText key)

/-- The table with another setting of a key; what is no table becomes one. -/
def withEntry (s : Setting) (key : String) (v : Setting) : Setting :=
  .table (Entries.insert compareText key v (s.entries?.getD []))

mutual

/-- The setting with another one laid over it. A table is laid over what is no table as over an
empty one. -/
def overlaid (s : Setting) : Setting → Setting
  | .table es => merge (.table (s.entries?.getD [])) es
  | .null => .null
  | .bool b => .bool b
  | .int i => .int i
  | .float d => .float d
  | .text t => .text t
  | .list items => .list items

/-- The table with settings laid over those of their keys. -/
def merge (root : Setting) : List (String × Setting) → Setting
  | [] => root
  | (key, v) :: rest =>
    merge (root.withEntry key (overlaid ((root.entry? key).getD .null) v)) rest

end

/-- A setting as text: scalars as they are written. -/
def asText? : Setting → Option String
  | .text s => some s
  | .bool b => some (if b then "true" else "false")
  | .int i => some (Number.intText i)
  | .float d => some d.text
  | _ => none

/-- The truth value of a word. -/
def wordBool? (word : String) : Option Bool :=
  let word := String.ofList (Text.lowerChars word.toList)
  if ["1", "true", "on", "yes"].contains word then some true
  else if ["0", "false", "off", "no"].contains word then some false
  else none

/-- A setting as truth value: numbers are true unless zero, and some words stand for either. -/
def asBool? : Setting → Option Bool
  | .bool b => some b
  | .int i => some (i != 0)
  | .float d => some !d.isZero
  | .text s => wordBool? s
  | _ => none

/-- A setting as naming: its name, or a table with the name as only key. -/
def asNaming? : Setting → Option Naming
  | .text s => Naming.ofName? s
  | .table [(name, _)] => Naming.ofName? name
  | _ => none

mutual

/-- The setting of a JSON value. An integer beyond 64 bits is a double. -/
def ofJson : Json → Setting
  | .null => .null
  | .bool b => .bool b
  | .number (.int i) =>
    if IntKind.i64.Holds i || IntKind.u64.Holds i then .int i
    else .float (Number.Binary.ofInt .double i)
  | .number (.float d) => .float d
  | .string s => .text s
  | .array items => .list (ofJsonItems items)
  | .object members => .table (ofJsonMembers members)

/-- The settings of the items of an array. -/
def ofJsonItems : List Json → List Setting
  | [] => []
  | item :: rest => ofJson item :: ofJsonItems rest

/-- The settings of the members of an object. -/
def ofJsonMembers : List (String × Json) → List (String × Setting)
  | [] => []
  | (name, v) :: rest => (name, ofJson v) :: ofJsonMembers rest

end

end Setting

end TypedSheets
