import TypedSheets.Bytes.Codec
import TypedSheets.Cell.Error
import TypedSheets.Text.Case

/-!
# Scalars

The cell types that hold one truth value, number or text. Reading is lenient: null and blank texts
are zero, and texts are parsed.

* `ScalarType`, `ScalarType.El` — the types and their values
* `ScalarType.read`, `ScalarType.print` — from and to dynamic values
* `ScalarType.encode`, `ScalarType.decode` — the binary form
-/

namespace TypedSheets

open Number

/-- A cell type that holds one truth value, number or text. -/
inductive ScalarType where
  | bool
  | int (k : IntKind)
  | single
  | double
  | text
  deriving DecidableEq

namespace ScalarType

/-- The values of a scalar type. -/
def El : ScalarType → Type
  | .bool => Bool
  | .int k => k.El
  | .single => Single
  | .double => Double
  | .text => String

/-- The name of the type. -/
def name : ScalarType → String
  | .bool => "bool"
  | .int k => k.name
  | .single => "f32"
  | .double => "f64"
  | .text => "String"

/-- The value that stands where nothing is given. -/
def default : (s : ScalarType) → s.El
  | .bool => false
  | .int k => k.zero
  | .single => Binary.zero .single
  | .double => Binary.zero .double
  | .text => ""

/-- The truth value that a text spells. -/
def spelledBool? (s : String) : Option Bool :=
  let word := Text.lowerAscii (Text.trim s)
  if word == "" || word == "false" || word == "0" || word == "no" then some false
  else if word == "true" || word == "1" || word == "yes" then some true
  else none

/-- Reads a truth value. -/
def readBool : Value → Except CellError Bool
  | .null => .ok false
  | .bool b => .ok b
  | .int i => .ok (i.val != 0)
  | .text s =>
    match spelledBool? s with
    | some b => .ok b
    | none => .error (.parse s "bool")
  | other => .error (.unexpected "bool" other)

/-- The whole number of 128 bits that a value stands for. A whole double beyond 128 bits stands for
the nearest such number. -/
def readWide (expected : String) : Value → Except CellError Int
  | .null => .ok 0
  | .bool b => .ok (if b then 1 else 0)
  | .int i => .ok i.val
  | .float d =>
    match d.wholePart? with
    | some i => .ok (IntKind.i128.clamp i)
    | none => .error (.unexpected expected (.float d))
  | .text s =>
    if Text.isBlank s then .ok 0
    else
      match (parseInt? (Text.trimChars s.toList)).bind IntKind.i128.ofInt? with
      | some i => .ok i.val
      | none => .error (.parse s expected)
  | other => .error (.unexpected expected other)

/-- Reads an integer of a kind. -/
def readInt (k : IntKind) (v : Value) : Except CellError k.El :=
  match readWide k.name v with
  | .error e => .error e
  | .ok wide =>
    match k.ofInt? wide with
    | some x => .ok x
    | none => .error (.outOfRange (intText wide) k.name)

/-- Reads a floating point number of a format; `ofDouble` takes a double to the format. -/
def readBinary (f : Format) (expected : String) (ofDouble : Double → Binary f) :
    Value → Except CellError (Binary f)
  | .null => .ok (Binary.zero f)
  | .bool b => .ok (Binary.ofInt f (if b then 1 else 0))
  | .int i => .ok (Binary.ofInt f i.val)
  | .float d => .ok (ofDouble d)
  | .text s =>
    if Text.isBlank s then .ok (Binary.zero f)
    else
      match Binary.parse? f (Text.trimChars s.toList) with
      | some x => .ok x
      | none => .error (.parse s expected)
  | other => .error (.unexpected expected other)

/-- Reads a text; scalars are spelled as ids are. -/
def readText : Value → Except CellError String
  | .null => .ok ""
  | .text s => .ok s
  | .bool b => .ok (Value.boolText b)
  | .int i => .ok (intText i.val)
  | .float d => .ok (Value.floatKey d)
  | other => .error (.unexpected "string" other)

/-- Reads a value of a scalar type. -/
def read : (s : ScalarType) → Value → Except CellError s.El
  | .bool => readBool
  | .int k => readInt k
  | .single => readBinary .single "f32" (Binary.convert .single)
  | .double => readBinary .double "f64" id
  | .text => readText

/-- The dynamic value of an integer: its digits where 64 bits with sign do not hold it. -/
def printInt (i : Int) : Value :=
  match IntKind.i64.ofInt? i with
  | some n => .int n
  | none => .text (intText i)

/-- The dynamic value of a scalar. -/
def print : (s : ScalarType) → s.El → Value
  | .bool, b => .bool b
  | .int _, x => printInt x.val
  | .single, x => .float (Binary.convert .double x)
  | .double, x => .float x
  | .text, s => .text s

/-- An order on the values of a scalar type: numbers by size, texts by code points, false first.
Floating point numbers, which never serve as keys, are ordered by their bits. -/
def cmp : (s : ScalarType) → s.El → s.El → Ordering
  | .bool, a, b => compare a.toNat b.toNat
  | .int _, a, b => compare a.val b.val
  | .single, a, b => compare a.bits.val b.bits.val
  | .double, a, b => compare a.bits.val b.bits.val
  | .text, a, b => compareText a b

/-- The binary form of a scalar. -/
def encode : (s : ScalarType) → s.El → List UInt8
  | .bool => Bytes.encodeBool
  | .int k => Bytes.encodeInt k
  | .single => Bytes.encodeBinary
  | .double => Bytes.encodeBinary
  | .text => Bytes.encodeString

/-- Reads the binary form of a scalar. -/
def decode : (s : ScalarType) → Bytes.Decoder s.El
  | .bool => Bytes.decodeBool
  | .int k => Bytes.decodeInt k
  | .single => Bytes.decodeBinary .single
  | .double => Bytes.decodeBinary .double
  | .text => Bytes.decodeString

end ScalarType

end TypedSheets
