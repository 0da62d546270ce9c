import TypedSheets.Json.Basic
import TypedSheets.Property.Node

/-!
# Views of property trees

* `PropertyNode.toJson` — the view of a node and those below it
* `PropertyNode.siteJson` — the view of a place in a row
-/

namespace TypedSheets.PropertyNode

variable {ρ : Type}

/-- The view of a node, with the views of those below it. -/
def toJsonWith (n : PropertyNode ρ) (children : List Json) : Json :=
  .ofMembers
    [("path", .string n.path), ("declared", .maybe (fun d => .string d.declaredName) n.descriptor),
      ("depth", .nat n.depth), ("leaf", .bool n.isLeaf), ("vertical", .bool n.isVertical),
      ("kind", .string n.kind.name), ("children", .array children)]

mutual

/-- The view of a node and those below it. -/
def toJson : PropertyNode ρ → Json
  | .mk path descriptor depth access children =>
    toJsonWith (.mk path descriptor depth access children) (toJsonEach children)

/-- The views of nodes. -/
def toJsonEach : List (PropertyNode ρ) → List Json
  | [] => []
  | n :: rest => n.toJson :: toJsonEach rest

end

/-- The view of indexes. -/
def indexesJson (indexes : List Nat) : Json := .array (indexes.map .nat)

/-- The view of a place in a row: the path of a node and the indexes to it. -/
def siteJson (s : PropertyNode ρ × List Nat) : Json := .array [.string s.1.path, indexesJson s.2]

end TypedSheets.PropertyNode
