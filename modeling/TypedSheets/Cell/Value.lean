import TypedSheets.Json.Basic
import TypedSheets.Number.Decimal
import TypedSheets.Number.Integer
import TypedSheets.Reference

/-!
# Cell values

The values that sheets hold and that typed members are read from and printed to.

* `Value` — a dynamic cell value
* `RawRow` — the cells of a row, sorted by column name
* `Value.key?` — the text of a scalar as an id
* `Value.ofJson` — the value of a JSON value
-/

namespace TypedSheets

/-- A reference to a row together with the record type it refers to. -/
structure TargetRef where
  target : String
  ref : SheetRef
  deriving DecidableEq

/-- A dynamic cell value. -/
inductive Value where
  | null
  | bool (b : Bool)
  | int (i : Int64El)
  | float (d : Number.Double)
  | text (s : String)
  | list (items : List Value)
  | map (entries : List (Value × Value))
  | record (cells : List (String × Value))
  | sheetRef (r : TargetRef)
  | assetRef (a : AssetRef)

instance : Inhabited Value := ⟨.null⟩

/-- The cells of a row, sorted by column name. -/
abbrev RawRow := Entries String Value

namespace RawRow

/-- The row without cells. -/
def empty : RawRow := []

/-- The cell of a column. -/
def get? (row : RawRow) (name : String) : Option Value := Entries.get? compareText name row

/-- The cell of a column; a missing cell is null. -/
def cell (row : RawRow) (name : String) : Value := (row.get? name).getD .null

/-- The row with another cell in a column. -/
def insert (row : RawRow) (name : String) (v : Value) : RawRow :=
  Entries.insert compareText name v row

/-- The row without a column. -/
def erase (row : RawRow) (name : String) : RawRow := Entries.erase compareText name row

/-- The row of a list of cells; of several in one column the last counts. -/
def ofList (cells : List (String × Value)) : RawRow := Entries.ofList compareText cells

/-- The row with every cell null. -/
def cleared (row : RawRow) : RawRow := row.map fun c => (c.1, .null)

end RawRow

namespace Value

/-- The kind of a value, as error texts name it. -/
def kind : Value → String
  | .null => "null"
  | .bool _ => "bool"
  | .int _ => "int"
  | .float _ => "float"
  | .text _ => "string"
  | .list _ => "list"
  | .map _ => "map"
  | .record _ => "record"
  | .sheetRef _ => "sheet reference"
  | .assetRef _ => "asset reference"

/-- Whether a value is null. -/
def isNull : Value → Bool
  | .null => true
  | _ => false

/-- Whole doubles below this magnitude are written as integers when they serve as ids. -/
def wholeKeyLimit : Nat := 9000000000000000

/-- The text of a double as an id. -/
def floatKey (d : Number.Double) : String :=
  match d.wholePart? with
  | some i => if i.natAbs < wholeKeyLimit then Number.intText i else d.text
  | none => d.text

/-- The text of a truth value. -/
def boolText (b : Bool) : String := if b then "true" else "false"

/-- The text of a scalar as an id. -/
def key? : Value → Option String
  | .bool b => some (boolText b)
  | .int i => some (Number.intText i.val)
  | .float d => some (floatKey d)
  | .text s => some (Text.trim s)
  | .sheetRef r => some r.ref.key
  | _ => none

mutual

/-- The value of a JSON value. An integer beyond 64 bits with sign is kept as its digits, and an
object is a record. -/
def ofJson : Json → Value
  | .null => .null
  | .bool b => .bool b
  | .number (.int i) =>
    match IntKind.i64.ofInt? i with
    | some n => .int n
    | none => .text (Number.intText i)
  | .number (.float d) => .float d
  | .string s => .text s
  | .array items => .list (ofJsonItems items)
  | .object members => .record (RawRow.ofList (ofJsonMembers members))

/-- The values of the items of an array. -/
def ofJsonItems : List Json → List Value
  | [] => []
  | item :: rest => ofJson item :: ofJsonItems rest

/-- The cells of the members of an object. -/
def ofJsonMembers : List (String × Json) → List (String × Value)
  | [] => []
  | (name, v) :: rest => (name, ofJson v) :: ofJsonMembers rest

end

end Value

end TypedSheets
