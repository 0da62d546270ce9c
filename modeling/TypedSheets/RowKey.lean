import TypedSheets.Number.Digits

/-!
# Row keys

The place of a row in a container, packed into a word of 64 bits: the ordinal of its sheet in the
upper 16 bits and its position in the lower 48. Row keys are compared as words.

* `RowKey.of?` — packs a place
* `RowKey.sheet`, `RowKey.row` — unpack it
* `RowKey.text` — `sheet:row`
-/

namespace TypedSheets

/-- The place of a row in a container, packed into a word. -/
structure RowKey where
  packed : UInt64
  deriving DecidableEq

namespace RowKey

/-- The width of the position of a row. -/
def rowBits : UInt64 := 48

/-- The bits of the position of a row. -/
def rowMask : UInt64 := (1 <<< rowBits) - 1

/-- The greatest position of a row. -/
def maxRow : UInt64 := rowMask

/-- The key of a sheet ordinal and a row position, if the position fits. -/
def of? (sheet : UInt16) (row : UInt64) : Option RowKey :=
  if row ≤ maxRow then some ⟨(sheet.toUInt64 <<< rowBits) ||| row⟩ else none

/-- The ordinal of the sheet. -/
def sheet (k : RowKey) : UInt16 := (k.packed >>> rowBits).toUInt16

/-- The position of the row. -/
def row (k : RowKey) : UInt64 := k.packed &&& rowMask

/-- Row keys are compared as words. -/
def cmp (a b : RowKey) : Ordering := compare a.packed b.packed

/-- The text of a key. -/
def text (k : RowKey) : String :=
  Number.natText k.sheet.toNat ++ ":" ++ Number.natText k.row.toNat

/-- The text of a key for diagnostics. -/
def debugText (k : RowKey) : String := "RowKey(" ++ k.text ++ ")"

end RowKey

end TypedSheets
