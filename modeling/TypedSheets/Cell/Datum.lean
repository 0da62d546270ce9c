import TypedSheets.Cell.Type

/-!
# Values taken apart

What the converter of a vertical member makes is put together to rows by recursion on the code of
their type, and rows are taken apart for it in the same way. What it makes is not linked yet: a
reference has its key or path, and leads nowhere. Dynamic values are left out.

* `CellType.ofDatum`, `Members.ofDatum` — values that are put together
* `CellType.toDatum`, `Members.toDatum` — values that are taken apart
* `RowsConverter.ofRows` — a converter given by functions on the rows themselves
-/

namespace TypedSheets

namespace Datum

/-- The scalar that data is. Data of another type stands for the default. -/
def scalarOf (s : ScalarType) : Datum → s.El
  | .scalar s' x => if h : s' = s then h ▸ x else s.default
  | _ => s.default

/-- The choice that data is; anything else stands for the first one. -/
def choiceOf (last : Nat) : Datum → Fin (last + 1)
  | .choice number => ⟨number % (last + 1), Nat.mod_lt _ (Nat.succ_pos last)⟩
  | _ => ⟨0, Nat.succ_pos last⟩

/-- The reference to a row that data is, not looked up yet. -/
def sheetRefOf : Datum → SheetRef
  | .sheetRef r => ⟨r.key, none⟩
  | _ => .empty

/-- The reference to an asset that data is, not looked up yet. -/
def assetRefOf : Datum → AssetRef
  | .assetRef a => ⟨a.path, a.sub, none⟩
  | _ => .empty

/-- As many parts as an array has. -/
def arrayOf {α : Type} (of : Datum → α) (length : Nat) (d : Datum) : ListOf α length :=
  ⟨(List.range length).map fun i => of (d.item i), by simp⟩

end Datum

/-- Plain data that is put together. -/
def DataType.ofDatum : (t : DataType) → Datum → t.El
  | .scalar s => Datum.scalarOf s
  | .choice _ last => Datum.choiceOf last
  | .option t => fun d => d.items.head?.map t.ofDatum
  | .list t => fun d => d.items.map t.ofDatum
  | .pair a b => fun d => (a.ofDatum (d.item 0), b.ofDatum (d.item 1))

/-- Plain data that is taken apart. -/
def DataType.toDatum : (t : DataType) → t.El → Datum
  | .scalar s => .scalar s
  | .choice _ last => fun (i : Fin (last + 1)) => .choice i.val
  | .option t => fun (x : Option t.El) => .list (x.toList.map t.toDatum)
  | .list t => fun (xs : List t.El) => .list (xs.map t.toDatum)
  | .pair a b => fun (x : a.El × b.El) => .list [a.toDatum x.1, b.toDatum x.2]

/-- Rows that are put together. -/
def RowsForm.ofDatum {α : Type} (of : Datum → α) : (form : RowsForm) → Datum → form.Holder α
  | .list => fun d => d.items.map of
  | .boxedSlice => fun d => d.items.map of
  | .array length => Datum.arrayOf of length

/-- Rows that are taken apart. -/
def RowsForm.toDatum {α : Type} (parts : α → Datum) (form : RowsForm) (xs : form.Holder α) :
    Datum :=
  .list ((form.items xs).map parts)

mutual

/-- A value of a cell type that is put together. -/
def CellType.ofDatum : (t : CellType) → Datum → t.El
  | .scalar s => Datum.scalarOf s
  | .option t => fun d => d.items.head?.map t.ofDatum
  | .sequence _ t => fun d => d.items.map t.ofDatum
  | .array t length => Datum.arrayOf t.ofDatum length
  | .set _ t => fun d => keysOfList t.cmp (d.items.map t.ofDatum)
  | .map _ _ k v => fun d =>
    Entries.ofList k.cmp (d.items.map fun e => (k.ofDatum (e.item 0), v.ofDatum (e.item 1)))
  | .sheetRef _ => Datum.sheetRefOf
  | .assetRef => Datum.assetRefOf
  | .record _ ms => fun d => ms.ofDatum d.items
  | .any => fun _ => .null

/-- The value of a member that is put together. -/
def MemberType.ofDatum : (t : MemberType) → Datum → t.El
  | .cell t => t.ofDatum
  | .rows form _ ms _ => form.ofDatum fun d => ms.ofDatum d.items
  | .converted c => c.output.ofDatum
  | .ignored t => t.ofDatum

/-- The values of members that are put together, one after the other. -/
def Members.ofDatum : (ms : Members) → List Datum → ms.El
  | .nil => fun _ => ()
  | .cons _ t rest => fun ds => (t.ofDatum (ds.headD (.list [])), rest.ofDatum ds.tail)

end

mutual

/-- A value of a cell type that is taken apart. -/
def CellType.toDatum : (t : CellType) → t.El → Datum
  | .scalar s => .scalar s
  | .option t => fun (x : Option t.El) => .list (x.toList.map t.toDatum)
  | .sequence _ t => fun (xs : List t.El) => .list (xs.map t.toDatum)
  | .array t _ => fun xs => .list (xs.val.map t.toDatum)
  | .set _ t => fun (xs : List t.El) => .list (xs.map t.toDatum)
  | .map _ _ k v => fun (es : List (k.El × v.El)) =>
    .list (es.map fun e => .list [k.toDatum e.1, v.toDatum e.2])
  | .sheetRef _ => .sheetRef
  | .assetRef => .assetRef
  | .record _ ms => fun x => .list (ms.toDatum x)
  | .any => fun _ => .list []

/-- The value of a member that is taken apart. -/
def MemberType.toDatum : (t : MemberType) → t.El → Datum
  | .cell t => t.toDatum
  | .rows form _ ms _ => form.toDatum fun x => .list (ms.toDatum x)
  | .converted c => c.output.toDatum
  | .ignored t => t.toDatum

/-- The values of members that are taken apart, one after the other. -/
def Members.toDatum : (ms : Members) → ms.El → List Datum
  | .nil => fun _ => []
  | .cons _ t rest => fun x => t.toDatum x.1 :: rest.toDatum x.2

end

/-- The rule of a vertical member that functions between an input and its rows give. -/
def RowsConverter.ofRows (form : RowsForm) (ms : Members) (name : String) (input : InputType)
    (convert : input.El → Except CellError (form.Holder ms.El))
    (revert : form.Holder ms.El → input.El) : RowsConverter where
  name
  input
  convert x := (convert x).map (form.toDatum fun y => .list (ms.toDatum y))
  revert d := revert (form.ofDatum (fun d => ms.ofDatum d.items) d)

end TypedSheets
