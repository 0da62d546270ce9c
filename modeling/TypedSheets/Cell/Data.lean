import TypedSheets.Cell.Scalar

/-!
# Plain data and converters

A member whose written form differs from its type has a converter, which reads a scalar and gives a
value of the type. The type itself is never read from a cell, so it may be any plain data. The rows
of a vertical member may be converted as well.

* `DataType`, `DataType.El` — plain data: scalars, choices, options, lists and pairs
* `InputType` — what converters read
* `Converter` — a pair of functions between input and output
* `Converter.Reverts` — the law that ties them
* `Datum` — data without a type
* `RowsConverter` — a pair of functions between input and the rows of a vertical member
-/

namespace TypedSheets

/-- A type of plain data. -/
inductive DataType where
  | scalar (s : ScalarType)
  /-- One of the `last + 1` choices of an enumeration. -/
  | choice (name : String) (last : Nat)
  | option (d : DataType)
  | list (d : DataType)
  | pair (first second : DataType)

namespace DataType

/-- The values of plain data. -/
def El : DataType → Type
  | .scalar s => s.El
  | .choice _ last => Fin (last + 1)
  | .option d => Option d.El
  | .list d => List d.El
  | .pair a b => a.El × b.El

/-- The value of a member that no cell gives. -/
def default : (d : DataType) → d.El
  | .scalar s => s.default
  | .choice _ last => (0 : Fin (last + 1))
  | .option _ => none
  | .list _ => []
  | .pair a b => (a.default, b.default)

/-- A choice is written as its number. -/
def encodeChoice (last : Nat) (i : Fin (last + 1)) : List UInt8 := Bytes.encodeNat i.val

/-- Reads the number of a choice. -/
def decodeChoice (last : Nat) : Bytes.Decoder (Fin (last + 1)) := fun bytes =>
  match Bytes.decodeNat 4 bytes with
  | none => none
  | some (n, rest) => if h : n < last + 1 then some (⟨n, h⟩, rest) else none

/-- The binary form of plain data. -/
def encode : (d : DataType) → d.El → List UInt8
  | .scalar s => s.encode
  | .choice _ last => encodeChoice last
  | .option d => Bytes.encodeOption d.encode
  | .list d => Bytes.encodeList d.encode
  | .pair a b => Bytes.encodePair a.encode b.encode

/-- Reads the binary form of plain data. -/
def decode : (d : DataType) → Bytes.Decoder d.El
  | .scalar s => s.decode
  | .choice _ last => decodeChoice last
  | .option d => Bytes.decodeOption d.decode
  | .list d => Bytes.decodeList d.decode
  | .pair a b => Bytes.decodePair a.decode b.decode

end DataType

/-- Reads an optional value: null and blank texts are none. -/
def readOption {α : Type} (read : Value → Except CellError α) :
    Value → Except CellError (Option α)
  | .null => .ok none
  | .text s => if Text.isBlank s then .ok none else (read (.text s)).map some
  | v => (read v).map some

/-- The dynamic value of an optional value. -/
def printOption {α : Type} (print : α → Value) : Option α → Value
  | none => .null
  | some x => print x

/-- What a converter reads: a scalar, perhaps an optional one. -/
inductive InputType where
  | scalar (s : ScalarType)
  | option (i : InputType)

namespace InputType

/-- The values of an input type. -/
def El : InputType → Type
  | .scalar s => s.El
  | .option i => Option i.El

/-- Reads an input. -/
def read : (i : InputType) → Value → Except CellError i.El
  | .scalar s => s.read
  | .option i => readOption i.read

/-- The dynamic value of an input. -/
def print : (i : InputType) → i.El → Value
  | .scalar s => s.print
  | .option i => printOption i.print

end InputType

/-- An explicit rule between the written form of a member and its type. -/
structure Converter where
  /-- The name of the rule. -/
  name : String
  input : InputType
  output : DataType
  convert : input.El → Except CellError output.El
  revert : output.El → input.El

namespace Converter

/-- Reads the written form. -/
def read (c : Converter) (v : Value) : Except CellError c.output.El :=
  match c.input.read v with
  | .error e => .error e
  | .ok x => c.convert x

/-- The written form of a value. -/
def print (c : Converter) (y : c.output.El) : Value := c.input.print (c.revert y)

/-- The written form of every value reads back as the value. -/
def Reverts (c : Converter) : Prop := ∀ y, c.read (c.print y) = .ok y

end Converter

/-- Data without a type: a value of a cell type or of a record as it is taken apart. A record is the
list of its members. -/
inductive Datum where
  | scalar (s : ScalarType) (x : s.El)
  | choice (number : Nat)
  | sheetRef (r : SheetRef)
  | assetRef (a : AssetRef)
  | list (items : List Datum)

namespace Datum

/-- The parts of data; a leaf has none. -/
def items : Datum → List Datum
  | .list items => items
  | _ => []

/-- The part of that number; nothing stands for a missing one. -/
def item (d : Datum) (i : Nat) : Datum := d.items.getD i (.list [])

end Datum

/-- An explicit rule between the written form of a vertical member and its rows. The types of rows
may have such rules in them, so a rule says what it does with rows that are taken apart: it makes
data of an input, of which the rows are put together, and an input of the data of rows. -/
structure RowsConverter where
  /-- The name of the rule. -/
  name : String
  input : InputType
  convert : input.El → Except CellError Datum
  revert : Datum → input.El

namespace RowsConverter

/-- Reads the written form of rows, which `make` puts together. -/
def read {α : Type} (c : RowsConverter) (make : Datum → α) (v : Value) : Except CellError α :=
  match c.input.read v with
  | .error e => .error e
  | .ok x => (c.convert x).map make

/-- The written form of rows, which `parts` takes apart. -/
def print {α : Type} (c : RowsConverter) (parts : α → Datum) (y : α) : Value :=
  c.input.print (c.revert (parts y))

end RowsConverter

end TypedSheets
