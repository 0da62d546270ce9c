import TypedSheets.Cell.Datum
import TypedSheets.Cell.Items

/-!
# Reading cells

A typed value is read from a dynamic one by recursion on the code of its type. Nested records are
read under a naming that each record may replace by its own.

* `CellType.read` — a value of a cell type
* `Members.read`, `RecordType.read` — the members of a record from the cells of a row
-/

namespace TypedSheets

/-- Reads an array of exactly `length` items; no items stand for as many nulls. -/
def readArray {α : Type} (read : Value → Except CellError α) (length : Nat) (v : Value) :
    Except CellError (ListOf α length) :=
  match v.items "array" with
  | .error e => .error e
  | .ok items =>
    let items := if items.isEmpty then List.replicate length .null else items
    match readEach read items with
    | .error e => .error e
    | .ok xs =>
      if h : xs.length = length then .ok ⟨xs, h⟩
      else
        .error (.mismatch (Number.natText length ++ " elements")
          (Number.natText items.length ++ " elements"))

/-- Reads a sequence. -/
def readSequence {α : Type} (expected : String) (read : Value → Except CellError α) (v : Value) :
    Except CellError (List α) :=
  match v.items expected with
  | .error e => .error e
  | .ok items => readEach read items

/-- Reads a set: its distinct elements in order. -/
def readSet {α : Type} (cmp : α → α → Ordering) (read : Value → Except CellError α) (v : Value) :
    Except CellError (List α) :=
  (readSequence "set" read v).map (keysOfList cmp)

/-- Reads a map: its entries in the order of their keys; of several with one key the last gives the
value. -/
def readMap {α β : Type} (cmp : α → α → Ordering) (readKey : Value → Except CellError α)
    (readValue : Value → Except CellError β) (v : Value) : Except CellError (List (α × β)) :=
  match v.entries "map" with
  | .error e => .error e
  | .ok entries => (readEntries readKey readValue entries).map (Entries.ofList cmp)

/-- Reads the rows of a vertical member. -/
def RowsForm.read {α : Type} (read : Value → Except CellError α) :
    (form : RowsForm) → Value → Except CellError (form.Holder α)
  | .list => readSequence "list" read
  | .boxedSlice => readSequence "list" read
  | .array length => readArray read length

/-- Reads a reference to a row of a record type. -/
def SheetRef.read (target : String) : Value → Except CellError SheetRef
  | .null => .ok .empty
  | .sheetRef r =>
    if r.target == target then .ok r.ref
    else .error (.mismatch ("reference to " ++ target) ("reference to " ++ r.target))
  | .bool b => .ok (.ofKey (Value.boolText b))
  | .int i => .ok (.ofKey (Number.intText i.val))
  | .float d => .ok (.ofKey (Value.floatKey d))
  | .text s => .ok (.ofKey (Text.trim s))
  | other => .error (.unexpected "row id" other)

/-- Reads a reference to an asset. -/
def AssetRef.read : Value → Except CellError AssetRef
  | .null => .ok .empty
  | .assetRef a => .ok a
  | .text s => .ok (.parse s)
  | other => .error (.unexpected "asset path" other)

/-- Reads a nested record with `read`, which takes the cells of a row; null is the empty row. -/
def readRecord {α : Type} (name : String) (read : RawRow → Except CellError α) :
    Value → Except CellError α
  | .record cells => read cells
  | .null => read .empty
  | other => .error (.unexpected name other)

/-- Reads the rows of a vertical member, through its converter if it has one: `make` puts rows
together. -/
def readRows {α : Type} (via : Option RowsConverter) (make : Datum → α)
    (read : Value → Except CellError α) : Value → Except CellError α :=
  match via with
  | none => read
  | some c => c.read make

mutual

/-- Reads a value of a cell type. -/
def CellType.read : (t : CellType) → Naming → Value → Except CellError t.El
  | .scalar s, _ => s.read
  | .option t, n => readOption (t.read n)
  | .sequence form t, n => readSequence form.word (t.read n)
  | .array t length, n => readArray (t.read n) length
  | .set _ t, n => readSet t.cmp (t.read n)
  | .map _ _ k v, n => readMap k.cmp (k.read n) (v.read n)
  | .sheetRef target, _ => SheetRef.read target
  | .assetRef, _ => AssetRef.read
  | .record head ms, n => readRecord head.name (ms.read (head.effectiveNaming n))
  | .any, _ => fun v => .ok v

/-- Reads the member of that name from the cells of a row. -/
def MemberType.read :
    (t : MemberType) → (name : String) → Naming → RawRow → Except CellError t.El
  | .cell t, name, n => fun row => (t.read n (row.cell (n.wireName name))).mapError (.field name)
  | .rows form head ms via, name, n => fun row =>
    (readRows via (form.ofDatum fun d => ms.ofDatum d.items)
      (form.read (readRecord head.name (ms.read (head.effectiveNaming n))))
      (row.cell (n.wireName name))).mapError (.field name)
  | .converted c, name, n => fun row => (c.read (row.cell (n.wireName name))).mapError (.field name)
  | .ignored d, _, _ => fun _ => .ok d.default

/-- Reads members, one after the other; the first error wins. -/
def Members.read : (ms : Members) → Naming → RawRow → Except CellError ms.El
  | .nil, _ => fun _ => .ok ()
  | .cons info t rest, n => fun row =>
    match t.read info.name n row with
    | .error e => .error e
    | .ok x =>
      match rest.read n row with
      | .error e => .error e
      | .ok xs => .ok (x, xs)

end

/-- Reads a row of a record type. The record's own naming wins over the one given. -/
def RecordType.read (r : RecordType) (n : Naming) (row : RawRow) : Except CellError r.Row :=
  r.members.read (r.head.effectiveNaming n) row

end TypedSheets
