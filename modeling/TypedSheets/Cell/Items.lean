import TypedSheets.Cell.Error
import TypedSheets.Json.Reader
import TypedSheets.Text.Basic

/-!
# Collections in a cell

A cell may spell a collection in several ways: as a list or map, as JSON text, as texts between
commas, or as a lone scalar.

* `Value.items` — the items of a sequence
* `Value.entries` — the entries of a map
* `readEach`, `readEntries` — read every item, the first error wins
-/

namespace TypedSheets

/-- The items of a sequence that a text spells: nothing, a JSON array, or parts between commas. -/
def textItems? (s : List Char) : Option (List Value) :=
  match s with
  | [] => some []
  | '[' :: _ =>
    match Json.parse? (String.ofList s) with
    | some (.array items) => some (Value.ofJsonItems items)
    | _ => none
  | _ =>
    some ((Text.splitBy (· == ',') s).map fun part => .text (String.ofList (Text.trimChars part)))

namespace Value

/-- The items of a sequence cell; a lone scalar is one item. -/
def items (expected : String) : Value → Except CellError (List Value)
  | .null => .ok []
  | .list items => .ok items
  | .text s =>
    match textItems? (Text.trimChars s.toList) with
    | some items => .ok items
    | none => .error (.parse s expected)
  | .map entries => .error (.unexpected expected (.map entries))
  | .record cells => .error (.unexpected expected (.record cells))
  | scalar => .ok [scalar]

/-- The entry that a list of two items stands for. -/
def pair : Value → Except CellError (Value × Value)
  | .list [k, v] => .ok (k, v)
  | other => .error (.unexpected "[key, value] pair" other)

/-- The entries that the items of a list stand for. -/
def pairs : List Value → Except CellError (List (Value × Value))
  | [] => .ok []
  | item :: rest =>
    match pair item with
    | .error e => .error e
    | .ok p =>
      match pairs rest with
      | .error e => .error e
      | .ok ps => .ok (p :: ps)

/-- The entries that the cells of a row stand for. -/
def cellEntries (cells : RawRow) : List (Value × Value) := cells.map fun c => (.text c.1, c.2)

/-- The entries of a map cell. -/
def entries (expected : String) : Value → Except CellError (List (Value × Value))
  | .null => .ok []
  | .map entries => .ok entries
  | .record cells => .ok (cellEntries cells)
  | .text s =>
    if Text.isBlank s then .ok []
    else
      match Json.parse? (Text.trim s) with
      | some (.object members) => .ok (cellEntries (RawRow.ofList (ofJsonMembers members)))
      | _ => .error (.parse s expected)
  | .list items => pairs items
  | other => .error (.unexpected expected other)

end Value

/-- Reads every value; the first error wins. -/
def readEach {α : Type} (read : Value → Except CellError α) :
    List Value → Except CellError (List α)
  | [] => .ok []
  | v :: rest =>
    match read v with
    | .error e => .error e
    | .ok x =>
      match readEach read rest with
      | .error e => .error e
      | .ok xs => .ok (x :: xs)

/-- Reads every entry, its key before its value; the first error wins. -/
def readEntries {α β : Type} (readKey : Value → Except CellError α)
    (readValue : Value → Except CellError β) :
    List (Value × Value) → Except CellError (List (α × β))
  | [] => .ok []
  | (k, v) :: rest =>
    match readKey k with
    | .error e => .error e
    | .ok x =>
      match readValue v with
      | .error e => .error e
      | .ok y =>
        match readEntries readKey readValue rest with
        | .error e => .error e
        | .ok es => .ok ((x, y) :: es)

@[simp] theorem readEach_nil {α : Type} (read : Value → Except CellError α) :
    readEach read [] = .ok [] := rfl

end TypedSheets
