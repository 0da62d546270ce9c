import TypedSheets.Cell.Type

/-!
# The binary form of cells

Rows are kept as bytes between bakes. A record is its members in the order of their declaration,
those without a column included.

* `CellType.encode`, `CellType.decode` — the values of a cell type
* `RecordType.encode`, `RecordType.decode` — the rows of a record type
-/

namespace TypedSheets

open Bytes

/-- A row key is written as its packed number. -/
def RowKey.encode (k : RowKey) : List UInt8 := encodeNat k.packed.toNat

/-- Reads a packed row key. -/
def RowKey.decode : Decoder RowKey := fun bytes =>
  (decodeNat 8 bytes).map fun (n, rest) => (⟨UInt64.ofNat n⟩, rest)

/-- A reference to a row is its key and perhaps a place. -/
def SheetRef.encode (r : SheetRef) : List UInt8 :=
  encodeString r.key ++ encodeOption RowKey.encode r.resolved

/-- Reads a reference to a row. -/
def SheetRef.decode : Decoder SheetRef := fun bytes =>
  (decodePair decodeString (decodeOption RowKey.decode) bytes).map fun ((key, resolved), rest) =>
    (⟨key, resolved⟩, rest)

/-- A handle is its path, perhaps an item, and a location. -/
def AssetHandle.encode (h : AssetHandle) : List UInt8 :=
  encodeString h.path ++ (encodeOption encodeString h.sub ++ encodeString h.location)

/-- Reads a handle. -/
def AssetHandle.decode : Decoder AssetHandle := fun bytes =>
  (decodePair decodeString (decodePair (decodeOption decodeString) decodeString) bytes).map
    fun ((path, sub, location), rest) => (⟨path, sub, location⟩, rest)

/-- A reference to an asset is its path, perhaps an item, and perhaps a handle. -/
def AssetRef.encode (a : AssetRef) : List UInt8 :=
  encodeString a.path ++
    (encodeOption encodeString a.sub ++ encodeOption AssetHandle.encode a.handle)

/-- Reads a reference to an asset. -/
def AssetRef.decode : Decoder AssetRef := fun bytes =>
  (decodePair decodeString
      (decodePair (decodeOption decodeString) (decodeOption AssetHandle.decode)) bytes).map
    fun ((path, sub, handle), rest) => (⟨path, sub, handle⟩, rest)

/-- Arrays are written without their length. -/
def decodeArray {α : Type} (decode : Decoder α) (length : Nat) : Decoder (ListOf α length) :=
  fun bytes =>
    match decodeItems decode length bytes with
    | none => none
    | some (xs, rest) => if h : xs.length = length then some (⟨xs, h⟩, rest) else none

/-- The rows of a vertical member. -/
def RowsForm.encode {α : Type} (encode : α → List UInt8) :
    (form : RowsForm) → form.Holder α → List UInt8
  | .list => encodeList encode
  | .boxedSlice => encodeList encode
  | .array _ => fun xs => encodeItems encode xs.val

/-- Reads the rows of a vertical member. -/
def RowsForm.decode {α : Type} (decode : Decoder α) : (form : RowsForm) → Decoder (form.Holder α)
  | .list => decodeList decode
  | .boxedSlice => decodeList decode
  | .array length => decodeArray decode length

mutual

/-- The binary form of a value of a cell type. Dynamic values have none and take no bytes. -/
def CellType.encode : (t : CellType) → t.El → List UInt8
  | .scalar s => s.encode
  | .option t => encodeOption t.encode
  | .sequence _ t => encodeList t.encode
  | .array t _ => fun xs => encodeItems t.encode xs.val
  | .set _ t => encodeList t.encode
  | .map _ _ k v => encodeList (encodePair k.encode v.encode)
  | .sheetRef _ => SheetRef.encode
  | .assetRef => AssetRef.encode
  | .record _ ms => ms.encode
  | .any => fun _ => []

/-- The binary form of a member. -/
def MemberType.encode : (t : MemberType) → t.El → List UInt8
  | .cell t => t.encode
  | .rows form _ ms _ => form.encode ms.encode
  | .converted c => c.output.encode
  | .ignored d => d.encode

/-- The binary form of members, one after the other. -/
def Members.encode : (ms : Members) → ms.El → List UInt8
  | .nil => fun _ => []
  | .cons _ t rest => encodePair t.encode rest.encode

end

mutual

/-- Reads a value of a cell type. -/
def CellType.decode : (t : CellType) → Decoder t.El
  | .scalar s => s.decode
  | .option t => decodeOption t.decode
  | .sequence _ t => decodeList t.decode
  | .array t length => decodeArray t.decode length
  | .set _ t => fun bytes => (decodeList t.decode bytes).map fun (xs, rest) =>
    (keysOfList t.cmp xs, rest)
  | .map _ _ k v => fun bytes =>
    (decodeList (decodePair k.decode v.decode) bytes).map fun (es, rest) =>
      (Entries.ofList k.cmp es, rest)
  | .sheetRef _ => SheetRef.decode
  | .assetRef => AssetRef.decode
  | .record _ ms => ms.decode
  | .any => fun bytes => some (.null, bytes)

/-- Reads a member. -/
def MemberType.decode : (t : MemberType) → Decoder t.El
  | .cell t => t.decode
  | .rows form _ ms _ => form.decode ms.decode
  | .converted c => c.output.decode
  | .ignored d => d.decode

/-- Reads members, one after the other. -/
def Members.decode : (ms : Members) → Decoder ms.El
  | .nil => fun bytes => some ((), bytes)
  | .cons _ t rest => decodePair t.decode rest.decode

end

/-- The bytes of a row. -/
def RecordType.encode (r : RecordType) (x : r.Row) : List UInt8 := r.members.encode x

/-- The row that bytes hold; bytes behind it are ignored. -/
def RecordType.decode? (r : RecordType) (bytes : List UInt8) : Option r.Row :=
  (r.members.decode bytes).map Prod.fst

end TypedSheets
