import TypedSheets.Settings.Setting

/-!
# TOML: tables under construction

A document names its tables by headers and by keys with dots, in any order but each only once. The
tree remembers how a table came to be, which decides what may still be said about it.

* `Toml.Node`, `Toml.Branch` — the tree
* `Toml.Branch.assign?` — a value under a key with dots
* `Toml.Branch.openTable?`, `Toml.Branch.openItem?` — a table or a table in a list under a header
* `Toml.Branch.settings` — the settings of a tree
-/

namespace TypedSheets.Toml

/-- How a table came to be. -/
inductive TableOrigin where
  /-- A header of a table below it goes through it. -/
  | passed
  | header
  /-- A key with dots goes through it. -/
  | dotted
  deriving DecidableEq

/-- A part of a document under construction. -/
inductive Node where
  | value (s : Setting)
  | table (origin : TableOrigin) (entries : List (String × Node))
  /-- A list of tables, the last first. -/
  | tables (items : List (List (String × Node)))

/-- The entries of a table under construction. -/
abbrev Branch : Type := List (String × Node)

namespace Branch

/-- The node of a key. -/
def get? (b : Branch) (key : String) : Option Node := Entries.get? compareText key b

/-- The table with another node of a key. -/
def set (b : Branch) (key : String) (n : Node) : Branch := Entries.insert compareText key n b

/-- The table with a value under a key with dots. The key may go through tables that no header has
opened and through the last table of a list, but it ends in none that a header has opened, and
nothing is said twice. -/
def assign? : (key : List String) → Setting → Branch → Option Branch
  | [], _, _ => none
  | [key], v, b => if (b.get? key).isSome then none else some (b.set key (.value v))
  | key :: rest, v, b =>
    match b.get? key with
    | none => (assign? rest v []).map fun child => b.set key (.table .dotted child)
    | some (.table .header _) => none
    | some (.table origin below) =>
      (assign? rest v below).map fun child => b.set key (.table origin child)
    | some (.tables (last :: others)) =>
      if rest.length == 1 then none
      else (assign? rest v last).map fun child => b.set key (.tables (child :: others))
    | some _ => none

/-- The table with the node at the end of a header changed. A header goes through tables and through
the last table of a list, and makes those that are missing. -/
def change? (act : Option Node → Option Node) : (header : List String) → Branch → Option Branch
  | [], _ => none
  | [key], b => (act (b.get? key)).map (b.set key)
  | key :: rest, b =>
    match b.get? key with
    | none => (change? act rest []).map fun child => b.set key (.table .passed child)
    | some (.table origin below) =>
      (change? act rest below).map fun child => b.set key (.table origin child)
    | some (.tables (last :: others)) =>
      (change? act rest last).map fun child => b.set key (.tables (child :: others))
    | some _ => none

/-- The table with a table opened by a header. -/
def openTable? : (header : List String) → Branch → Option Branch :=
  change? fun
    | none => some (.table .header [])
    | some (.table .passed below) => some (.table .header below)
    | some _ => none

/-- The table with a table added to a list by a header. -/
def openItem? : (header : List String) → Branch → Option Branch :=
  change? fun
    | none => some (.tables [[]])
    | some (.tables items) => some (.tables ([] :: items))
    | some _ => none

/-- The table with a value in the table that a header opened; without a header in itself. -/
def assignUnder? (header key : List String) (v : Setting) (b : Branch) : Option Branch :=
  if header.isEmpty then assign? key v b
  else
    change?
      (fun
        | some (.table origin below) => (assign? key v below).map (.table origin)
        | some (.tables (last :: others)) =>
          (assign? key v last).map fun child => .tables (child :: others)
        | _ => none)
      header b

end Branch

mutual

/-- The setting of a node. -/
def Node.setting : Node → Setting
  | .value s => s
  | .table _ entries => .table (Branch.settings entries)
  | .tables items => .list (Branch.settingsEach items).reverse

/-- The settings of the entries of a table. -/
def Branch.settings : List (String × Node) → List (String × Setting)
  | [] => []
  | (key, n) :: rest => (key, n.setting) :: Branch.settings rest

/-- The tables of a list. -/
def Branch.settingsEach : List (List (String × Node)) → List Setting
  | [] => []
  | b :: rest => .table (Branch.settings b) :: Branch.settingsEach rest

end

end TypedSheets.Toml
