import TypedSheets.Cell.Datum

/-!
# Printing cells

The dynamic value of a typed one, by recursion on the code of its type. It reads back as the same
value.

* `CellType.print` — the value of a cell
* `Members.print`, `RecordType.print` — the cells of a row
-/

namespace TypedSheets

/-- The dynamic value of the rows of a vertical member, through its converter if it has one: `parts`
takes rows apart. -/
def printRows {α : Type} (via : Option RowsConverter) (parts : α → Datum) (print : α → Value) :
    α → Value :=
  match via with
  | none => print
  | some c => c.print parts

mutual

/-- The dynamic value of a value of a cell type. -/
def CellType.print : (t : CellType) → Naming → t.El → Value
  | .scalar s, _ => s.print
  | .option t, n => printOption (t.print n)
  | .sequence _ t, n => fun xs => .list (xs.map (t.print n))
  | .array t _, n => fun xs => .list (xs.val.map (t.print n))
  | .set _ t, n => fun xs => .list (xs.map (t.print n))
  | .map _ _ k v, n => fun es => .map (es.map fun e => (k.print n e.1, v.print n e.2))
  | .sheetRef target, _ => fun r => .sheetRef ⟨target, r⟩
  | .assetRef, _ => fun a => .assetRef a
  | .record head ms, n => fun x => .record (ms.print (head.effectiveNaming n) x .empty)
  | .any, _ => fun v => v

/-- The row with the member's cell, if it has one. -/
def MemberType.print : (t : MemberType) → (name : String) → Naming → t.El → RawRow → RawRow
  | .cell t, name, n => fun x row => row.insert (n.wireName name) (t.print n x)
  | .rows form head ms via, name, n => fun xs row =>
    row.insert (n.wireName name)
      (printRows via (form.toDatum fun x => .list (ms.toDatum x))
        (fun xs => .list ((form.items xs).map fun x =>
          .record (ms.print (head.effectiveNaming n) x .empty))) xs)
  | .converted c, name, n => fun y row => row.insert (n.wireName name) (c.print y)
  | .ignored _, _, _ => fun _ row => row

/-- The row with the cells of the members, one after the other. -/
def Members.print : (ms : Members) → Naming → ms.El → RawRow → RawRow
  | .nil, _ => fun _ row => row
  | .cons info t rest, n => fun x row => rest.print n x.2 (t.print info.name n x.1 row)

end

/-- The cells of a row. The record's own naming wins over the one given. -/
def RecordType.print (r : RecordType) (n : Naming) (x : r.Row) : RawRow :=
  r.members.print (r.head.effectiveNaming n) x .empty

end TypedSheets
