import TypedSheets.Bytes.Utf8
import TypedSheets.Number.Binary
import TypedSheets.Number.Integer

/-!
# The binary form of plain data

Numbers of more than one byte are written with as few bytes as they need: below 251 as one byte,
else a marker and two, four, eight or sixteen bytes, the lowest first. Signed numbers are folded
onto the unsigned ones first.

* `Bytes.Decoder` — reads a value from the front of the bytes
* `Bytes.encodeNat`, `Bytes.decodeNat` — unsigned numbers
* `Bytes.encodeInt`, `Bytes.decodeInt` — the integer kinds
* `Bytes.encodeString`, `Bytes.encodeOption`, `Bytes.encodeList` and their decoders
-/

namespace TypedSheets.Bytes

open Number

/-- Reads a value from the front of the bytes and gives the rest; `none` if there is none. -/
abbrev Decoder (α : Type) := List UInt8 → Option (α × List UInt8)

/-- The lowest `count` bytes of a number, the lowest first. -/
def littleEndian : (count n : Nat) → List UInt8
  | 0, _ => []
  | count + 1, n => byte n :: littleEndian count (n / 256)

/-- The number of bytes, the lowest first. -/
def ofLittleEndian : List UInt8 → Nat
  | [] => 0
  | b :: rest => b.toNat + 256 * ofLittleEndian rest

/-- Takes that many bytes. -/
def takeBytes (count : Nat) : Decoder (List UInt8) := fun bytes =>
  if count ≤ bytes.length then some (bytes.take count, bytes.drop count) else none

/-- Takes a number of that many bytes, the lowest first. -/
def takeLittleEndian (count : Nat) : Decoder Nat := fun bytes =>
  (takeBytes count bytes).map fun (taken, rest) => (ofLittleEndian taken, rest)

/-- An unsigned number in as few bytes as it needs. -/
def encodeNat (n : Nat) : List UInt8 :=
  if n < 251 then [byte n]
  else if n < UInt16.size then 251 :: littleEndian 2 n
  else if n < UInt32.size then 252 :: littleEndian 4 n
  else if n < UInt64.size then 253 :: littleEndian 8 n
  else 254 :: littleEndian 16 n

/-- An unsigned number of at most `width` bytes. A longer form than needed is read, one longer than
`width` is not. -/
def decodeNat (width : Nat) : Decoder Nat
  | [] => none
  | b :: rest =>
    if b.toNat < 251 then some (b.toNat, rest)
    else if b == 251 && 2 ≤ width then takeLittleEndian 2 rest
    else if b == 252 && 4 ≤ width then takeLittleEndian 4 rest
    else if b == 253 && 8 ≤ width then takeLittleEndian 8 rest
    else if b == 254 && 16 ≤ width then takeLittleEndian 16 rest
    else none

/-- Folds the integers onto the natural numbers, small ones to small ones. -/
def fold (i : Int) : Nat := if 0 ≤ i then 2 * i.natAbs else 2 * i.natAbs - 1

/-- The integer folded onto a natural number. -/
def unfold (n : Nat) : Int := if n % 2 == 0 then (n / 2 : Nat) else -((n / 2 + 1 : Nat) : Int)

/-- A value of an integer kind: one byte if the kind has one, else in as few as it needs. -/
def encodeInt (k : IntKind) (x : k.El) : List UInt8 :=
  if k.bits == 8 then [byte (x.val % 256).toNat]
  else if k.signed then encodeNat (fold x.val)
  else encodeNat x.val.toNat

/-- Reads a value of an integer kind. -/
def decodeInt (k : IntKind) : Decoder k.El := fun bytes =>
  if k.bits == 8 then
    match bytes with
    | [] => none
    | b :: rest =>
      let n : Int := b.toNat
      (k.ofInt? (if k.signed && 128 ≤ n then n - 256 else n)).map fun x => (x, rest)
  else
    match decodeNat (k.bits / 8) bytes with
    | none => none
    | some (n, rest) => (k.ofInt? (if k.signed then unfold n else n)).map fun x => (x, rest)

/-- A truth value is a byte, one or zero. -/
def encodeBool (b : Bool) : List UInt8 := [if b then 1 else 0]

/-- Reads a truth value. -/
def decodeBool : Decoder Bool
  | [] => none
  | b :: rest => if b == 0 then some (false, rest) else if b == 1 then some (true, rest) else none

/-- The bits of a floating point number, the lowest byte first. -/
def encodeBinary {f : Format} (x : Binary f) : List UInt8 := littleEndian f.bytes x.bits.val

/-- Reads a floating point number. -/
def decodeBinary (f : Format) : Decoder (Binary f) := fun bytes =>
  (takeLittleEndian f.bytes bytes).map fun (n, rest) => (Binary.ofBits f n, rest)

/-- A text: the number of its bytes and then the bytes. -/
def encodeString (s : String) : List UInt8 :=
  encodeNat (encodeText s).length ++ encodeText s

/-- Reads a text. -/
def decodeString : Decoder String := fun bytes =>
  match decodeNat 8 bytes with
  | none => none
  | some (n, rest) =>
    match takeBytes n rest with
    | none => none
    | some (taken, rest) => (decodeText? taken).map fun s => (s, rest)

/-- An optional value: zero, or one and the value. -/
def encodeOption {α : Type} (encode : α → List UInt8) : Option α → List UInt8
  | none => [0]
  | some x => 1 :: encode x

/-- Reads an optional value. -/
def decodeOption {α : Type} (decode : Decoder α) : Decoder (Option α)
  | [] => none
  | b :: rest =>
    if b == 0 then some (none, rest)
    else if b == 1 then (decode rest).map fun (x, rest) => (some x, rest)
    else none

/-- The items one after the other. -/
def encodeItems {α : Type} (encode : α → List UInt8) (items : List α) : List UInt8 :=
  items.flatMap encode

/-- Reads that many items. -/
def decodeItems {α : Type} (decode : Decoder α) : (count : Nat) → Decoder (List α)
  | 0, bytes => some ([], bytes)
  | count + 1, bytes =>
    match decode bytes with
    | none => none
    | some (x, rest) =>
      match decodeItems decode count rest with
      | none => none
      | some (xs, rest) => some (x :: xs, rest)

/-- A list: the number of items and then the items. -/
def encodeList {α : Type} (encode : α → List UInt8) (items : List α) : List UInt8 :=
  encodeNat items.length ++ encodeItems encode items

/-- Reads a list. -/
def decodeList {α : Type} (decode : Decoder α) : Decoder (List α) := fun bytes =>
  match decodeNat 8 bytes with
  | none => none
  | some (n, rest) => decodeItems decode n rest

/-- A pair: the first and then the second. -/
def encodePair {α β : Type} (encodeFirst : α → List UInt8) (encodeSecond : β → List UInt8)
    (p : α × β) : List UInt8 :=
  encodeFirst p.1 ++ encodeSecond p.2

/-- Reads a pair. -/
def decodePair {α β : Type} (decodeFirst : Decoder α) (decodeSecond : Decoder β) :
    Decoder (α × β) := fun bytes =>
  match decodeFirst bytes with
  | none => none
  | some (a, rest) => (decodeSecond rest).map fun (b, rest) => ((a, b), rest)

theorem ofLittleEndian_littleEndian (count n : Nat) (h : n < Nat.pow 256 count) :
    ofLittleEndian (littleEndian count n) = n := by
  induction count generalizing n with
  | zero => simp at h; simp [littleEndian, ofLittleEndian, h]
  | succ count ih =>
    have hn : n / 256 < Nat.pow 256 count := by
      have : Nat.pow 256 (count + 1) = Nat.pow 256 count * 256 := rfl
      omega
    simp only [littleEndian, ofLittleEndian, ih _ hn, byte, UInt8.toNat_ofNat']
    omega

theorem unfold_fold (i : Int) : unfold (fold i) = i := by
  unfold unfold fold
  split <;> split <;> simp_all <;> omega

end TypedSheets.Bytes
