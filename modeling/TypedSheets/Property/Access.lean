import TypedSheets.Cell.Read
import TypedSheets.Property.Node

/-!
# Reading and writing through a node

* `PropertyNode.get`, `PropertyNode.set` — the value of a leaf
* `PropertyNode.count` — the number of elements of a list or collection
* `PropertyNode.element`, `PropertyNode.setElement` — one element of a collection
* `PropertyNode.getTyped` — the value of a leaf read as a cell type
-/

namespace TypedSheets

namespace PropertyNode

variable {ρ : Type}

/-- Goes on only with as many indexes as the node takes. -/
def checked {β : Type} (n : PropertyNode ρ) (indexes : List Nat)
    (act : Unit → Except AccessError β) : Except AccessError β :=
  if indexes.length = n.depth then act ()
  else .error (.indexDepth n.path n.depth indexes.length)

/-- The value of a leaf. -/
def get (n : PropertyNode ρ) (row : ρ) (indexes : List Nat) : Except AccessError Value :=
  n.checked indexes fun _ =>
    match n.access with
    | .leaf get _ => get row indexes
    | _ => .error (.notALeaf n.path)

/-- The row with another value in a leaf. -/
def set (n : PropertyNode ρ) (row : ρ) (indexes : List Nat) (v : Value) :
    Except AccessError ρ :=
  n.checked indexes fun _ =>
    match n.access with
    | .leaf _ set => set row indexes v
    | _ => .error (.notALeaf n.path)

/-- The number of elements of a collection. -/
def countOf (path : String) : Value → Except AccessError Nat
  | .list items => .ok items.length
  | .map entries => .ok entries.length
  | .null => .ok 0
  | _ => .error (.notACollection path)

/-- The number of elements of a vertical node or of a leaf that is a collection. -/
def count (n : PropertyNode ρ) (row : ρ) (indexes : List Nat) : Except AccessError Nat :=
  n.checked indexes fun _ =>
    match n.access with
    | .vertical count => count row indexes
    | .leaf get _ =>
      if n.kind = .scalar then .error (.notACollection n.path)
      else
        match get row indexes with
        | .error e => .error e
        | .ok v => countOf n.path v
    | .root => .error (.notACollection n.path)

/-- An element of a collection; of a map the value of an entry. -/
def elementOf (path : String) (index : Nat) : Value → Except AccessError Value
  | .list items =>
    match items[index]? with
    | some v => .ok v
    | none => .error (.outOfRange path index items.length)
  | .map entries =>
    match entries[index]? with
    | some e => .ok e.2
    | none => .error (.outOfRange path index entries.length)
  | _ => .error (.notACollection path)

/-- The collection with another element; in a map the key of the entry stays. -/
def withElement (path : String) (index : Nat) (v : Value) : Value → Except AccessError Value
  | .list items =>
    if index < items.length then .ok (.list (items.set index v))
    else .error (.outOfRange path index items.length)
  | .map entries =>
    match entries[index]? with
    | some e => .ok (.map (entries.set index (e.1, v)))
    | none => .error (.outOfRange path index entries.length)
  | _ => .error (.notACollection path)

/-- An element of a leaf that is a collection. -/
def element (n : PropertyNode ρ) (row : ρ) (index : Nat) (indexes : List Nat) :
    Except AccessError Value :=
  match n.get row indexes with
  | .error e => .error e
  | .ok v => elementOf n.path index v

/-- The row with another element in a leaf that is a collection. -/
def setElement (n : PropertyNode ρ) (row : ρ) (index : Nat) (indexes : List Nat) (v : Value) :
    Except AccessError ρ :=
  match n.get row indexes with
  | .error e => .error e
  | .ok whole =>
    match withElement n.path index v whole with
    | .error e => .error e
    | .ok whole => n.set row indexes whole

/-- The value of a leaf read as a cell type. -/
def getTyped (n : PropertyNode ρ) (t : CellType) (row : ρ) (indexes : List Nat) :
    Except AccessError t.El :=
  match n.get row indexes with
  | .error e => .error e
  | .ok v => (t.read .pascal v).mapError (.cell n.path)

end PropertyNode

end TypedSheets
