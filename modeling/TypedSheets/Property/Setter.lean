import TypedSheets.Cell.Read
import TypedSheets.Property.Lens

/-!
# Setters

A setter of a member that collects takes the items, whatever they came from; every other setter
takes the value. No setter reads or converts anything by itself.

* `CellType.Given`, `CellType.collect` — what the setter of a member takes, and the value it makes
* `CellType.readGiven` — the same from dynamic values
* `Slot` — a member as a part of rows
* `RecordType.slot?` — the member that a getter shows
* `Slot.assign` — the row after the setter
-/

namespace TypedSheets

/-- What the setter of a member takes: items for a growing collection, else the value. -/
def CellType.Given : CellType → Type
  | .sequence _ t => List t.El
  | .set _ t => List t.El
  | .map _ _ k v => List (k.El × v.El)
  | t => t.El

/-- The value that a setter makes of what it takes. -/
def CellType.collect : (t : CellType) → t.Given → t.El
  | .sequence _ _ => fun items => items
  | .set _ t => fun items => keysOfList t.cmp items
  | .map _ _ k _ => fun items => Entries.ofList k.cmp items
  | .scalar _ => fun x => x
  | .option _ => fun x => x
  | .array _ _ => fun x => x
  | .sheetRef _ => fun x => x
  | .assetRef => fun x => x
  | .record _ _ => fun x => x
  | .any => fun x => x

/-- What the setter of a member takes, read from dynamic values: one for each item of a growing
collection, else the value, which is missing only where it is optional. -/
def CellType.readGiven : (t : CellType) → List Value → Except CellError t.Given
  | .sequence _ t => readEach (t.read .pascal)
  | .set _ t => readEach (t.read .pascal)
  | .map _ _ k v => fun vs =>
    match Value.pairs vs with
    | .ok es => readEntries (k.read .pascal) (v.read .pascal) es
    | .error e => .error e
  | .option t => fun vs =>
    match vs with
    | [] => .ok none
    | v :: _ => (t.read .pascal v).map some
  | .array t length => fun vs => readArray (t.read .pascal) length (.list vs)
  | .scalar s => fun vs => s.read (vs.head?.getD .null)
  | .sheetRef target => fun vs => SheetRef.read target (vs.head?.getD .null)
  | .assetRef => fun vs => AssetRef.read (vs.head?.getD .null)
  | .record head ms => fun vs => (CellType.record head ms).read .pascal (vs.head?.getD .null)
  | .any => fun vs => .ok (vs.head?.getD .null)

/-- A member that is a cell, as a part of rows. -/
structure Slot (ρ : Type) where
  info : MemberInfo
  type : CellType
  lens : Lens ρ type.El

/-- The members of a part of rows that are cells. -/
def Members.slots {ρ : Type} : (ms : Members) → Lens ρ ms.El → List (Slot ρ)
  | .nil, _ => []
  | .cons info (.cell t) rest, l => ⟨info, t, l.first⟩ :: rest.slots l.second
  | .cons _ (.rows ..) rest, l => rest.slots l.second
  | .cons _ (.converted _) rest, l => rest.slots l.second
  | .cons _ (.ignored _) rest, l => rest.slots l.second

/-- The member that a getter shows. -/
def RecordType.slot? (r : RecordType) (getter : String) : Option (Slot r.Row) :=
  (r.members.slots .whole).find? fun s => getterName s.info.name == getter

/-- The row after the setter of a member. -/
def Slot.assign {ρ : Type} (s : Slot ρ) (row : ρ) (given : s.type.Given) : ρ :=
  s.lens.set row (s.type.collect given)

end TypedSheets
