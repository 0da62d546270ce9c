import TypedSheets.Property.Error
import TypedSheets.Schema.Field

/-!
# Property trees

A property tree shows the members of a record to code that knows no types. Its leaves read and
write one member. A vertical node holds the nodes of the records in a list, and each of them takes
one more index than it would alone.

* `Access` — what a node does on a row
* `PropertyNode` — a node: path, descriptor, number of indexes, access and children
* `PropertyNode.lift` — the node below an element of a list
* `PropertyNode.leaf`, `PropertyNode.vertical`, `PropertyNode.root` — the three kinds of node
-/

namespace TypedSheets

/-- What a node does on a row, at a path of indexes. -/
inductive Access (ρ : Type) where
  | root
  | leaf (get : ρ → List Nat → Except AccessError Value)
      (set : ρ → List Nat → Value → Except AccessError ρ)
  | vertical (count : ρ → List Nat → Except AccessError Nat)

/-- A node of a property tree over rows of a type. -/
inductive PropertyNode (ρ : Type) where
  | mk (path : String) (descriptor : Option FieldDescriptor) (depth : Nat) (access : Access ρ)
      (children : List (PropertyNode ρ))

/-- The elements that a row holds in a list: how they are seen, and how one is replaced. -/
structure Elements (ρ α : Type) where
  items : ρ → List α
  set : ρ → Nat → α → ρ

/-- Does something at the element that the first index chooses, with the indexes behind it. -/
def Elements.atIndex {ρ α β : Type} (e : Elements ρ α) (path : String) (row : ρ)
    (indexes : List Nat) (act : Nat → α → List Nat → Except AccessError β) :
    Except AccessError β :=
  match indexes with
  | [] => .error (.indexDepth path 1 0)
  | i :: rest =>
    match (e.items row)[i]? with
    | none => .error (.outOfRange path i (e.items row).length)
    | some x => (act i x rest).mapError (AccessError.withPath path)

/-- The access below an element of a list. -/
def Access.lift {ρ α : Type} (e : Elements ρ α) (path : String) : Access α → Access ρ
  | .root => .root
  | .leaf get set =>
    .leaf (fun row indexes => e.atIndex path row indexes fun _ x rest => get x rest)
      (fun row indexes v =>
        e.atIndex path row indexes fun i x rest => (set x rest v).map (e.set row i))
  | .vertical count =>
    .vertical fun row indexes => e.atIndex path row indexes fun _ x rest => count x rest

namespace PropertyNode

variable {ρ α : Type}

/-- The names of the properties from the root to the node, with dots between them. -/
def path : PropertyNode ρ → String
  | mk p _ _ _ _ => p

/-- The member that the node stands for. -/
def descriptor : PropertyNode ρ → Option FieldDescriptor
  | mk _ d _ _ _ => d

/-- The number of indexes that the node takes. -/
def depth : PropertyNode ρ → Nat
  | mk _ _ d _ _ => d

/-- What the node does on a row. -/
def access : PropertyNode ρ → Access ρ
  | mk _ _ _ a _ => a

/-- The nodes below. -/
def children : PropertyNode ρ → List (PropertyNode ρ)
  | mk _ _ _ _ c => c

/-- Whether the node reads and writes a member. -/
def isLeaf (n : PropertyNode ρ) : Bool :=
  match n.access with
  | .leaf .. => true
  | _ => false

/-- Whether the node holds the nodes of a list of records. -/
def isVertical (n : PropertyNode ρ) : Bool :=
  match n.access with
  | .vertical _ => true
  | _ => false

/-- How the member collects its values. -/
def kind (n : PropertyNode ρ) : CollectionKind :=
  match n.descriptor with
  | some d => d.kind
  | none => .scalar

mutual

/-- The node below the elements of a list of the member named `parent`. -/
def lift (e : Elements ρ α) (parent : String) : PropertyNode α → PropertyNode ρ
  | .mk path descriptor depth access children =>
    let full := parent ++ "." ++ path
    .mk full descriptor (depth + 1) (access.lift e full) (liftEach e parent children)

/-- The nodes below the elements of a list. -/
def liftEach (e : Elements ρ α) (parent : String) : List (PropertyNode α) → List (PropertyNode ρ)
  | [] => []
  | n :: rest => n.lift e parent :: liftEach e parent rest

end

/-- The node of a member that is read and written as a whole. -/
def leaf (d : FieldDescriptor) (get : ρ → Value) (set : ρ → Value → Except CellError ρ) :
    PropertyNode ρ :=
  .mk d.propertyName (some d) 0
    (.leaf (fun row _ => .ok (get row))
      (fun row _ v => (set row v).mapError (.cell d.propertyName)))
    []

/-- The node of a vertical member, over the nodes of its records. -/
def vertical (d : FieldDescriptor) (e : Elements ρ α) (nodes : List (PropertyNode α)) :
    PropertyNode ρ :=
  .mk d.propertyName (some d) 0 (.vertical fun row _ => .ok (e.items row).length)
    (liftEach e d.propertyName nodes)

/-- The node above the members of a record. -/
def root (name : String) (nodes : List (PropertyNode ρ)) : PropertyNode ρ :=
  .mk name none 0 .root nodes

mutual

/-- The text of a node for diagnostics. -/
def debugText : PropertyNode ρ → String
  | .mk path _ depth _ children =>
    "PropertyNode \x7b path: " ++ Text.quoted path ++ ", depth: " ++ Number.natText depth ++
      ", children: [" ++ ", ".intercalate (debugTexts children) ++ "] \x7d"

/-- The texts of nodes for diagnostics. -/
def debugTexts : List (PropertyNode ρ) → List String
  | [] => []
  | n :: rest => n.debugText :: debugTexts rest

end

end PropertyNode

end TypedSheets
