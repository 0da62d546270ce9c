import TypedSheets.Cell.Data
import TypedSheets.Naming

/-!
# Cell types and record types

The types of members are codes, and `El` gives the values of a code. Reading, printing, comparing
and encoding are each defined once, by recursion on the code, so that they fit together for every
nesting. A code is a finite tree: no record type contains itself, although one that did, through a
list of its own rows, could be declared.

* `CellType` — the code of a cell type
* `MemberType` — a member: a cell, a vertical list of rows, perhaps with a converter, a converted
  value, or plain data that no column shows
* `Members` — the members of a record in the order of their declaration
* `RecordType` — a record type; `RecordType.Row` are its rows
* `CellType.cmp` — the order of keys of sets and maps
-/

namespace TypedSheets

/-- How a growing sequence is held. -/
inductive SequenceForm where
  | list
  | boxedSlice
  | sharedSlice
  | sharedList
  | queue
  | stack
  deriving DecidableEq

/-- What error texts call a sequence of that form. -/
def SequenceForm.word : SequenceForm → String
  | .list | .boxedSlice | .sharedSlice | .sharedList => "list"
  | .queue => "queue"
  | .stack => "stack"

/-- How a set or map is held: by hash or in order of its keys. -/
inductive KeyedForm where
  | hashed
  | sorted
  deriving DecidableEq

/-- How a vertical member holds its rows. -/
inductive RowsForm where
  | list
  | boxedSlice
  | array (length : Nat)
  deriving DecidableEq

/-- What a record type says about itself beyond its members. -/
structure RecordHead where
  name : String
  /-- The record's own naming, which wins over an inherited one. -/
  naming : Option Naming
  /-- Every member may be replaced. -/
  isMutable : Bool
  /-- The record backs tables. -/
  isTable : Bool
  /-- Members that are written by hand instead of being generated. -/
  userImpls : List String
  deriving DecidableEq

/-- What a member says about itself beyond its type. -/
structure MemberInfo where
  name : String
  isId : Bool
  isMutable : Bool
  deriving DecidableEq

mutual

/-- The code of a cell type. The members of a record are part of its code, so it does not occur in
them. -/
inductive CellType where
  | scalar (s : ScalarType)
  | option (t : CellType)
  | sequence (form : SequenceForm) (t : CellType)
  | array (t : CellType) (length : Nat)
  | set (form : KeyedForm) (t : CellType)
  | map (form : KeyedForm) (shared : Bool) (key value : CellType)
  | sheetRef (target : String)
  | assetRef
  | record (head : RecordHead) (members : Members)
  | any

/-- The type of a member. The rows of a vertical member have their members in its code, as the
records of a cell do, and are written in a list of cells or `via` a converter. -/
inductive MemberType where
  | cell (t : CellType)
  | rows (form : RowsForm) (head : RecordHead) (members : Members) (via : Option RowsConverter)
  | converted (c : Converter)
  | ignored (d : DataType)

/-- The members of a record. -/
inductive Members where
  | nil
  | cons (info : MemberInfo) (t : MemberType) (rest : Members)

end

/-- A list of exactly that length. -/
abbrev ListOf (α : Type) (length : Nat) : Type := { items : List α // items.length = length }

/-- The values that hold the rows of a vertical member. -/
def RowsForm.Holder : RowsForm → Type → Type
  | .list, α => List α
  | .boxedSlice, α => List α
  | .array length, α => ListOf α length

mutual

/-- The values of a cell type. -/
def CellType.El : CellType → Type
  | .scalar s => s.El
  | .option t => Option t.El
  | .sequence _ t => List t.El
  | .array t length => ListOf t.El length
  | .set _ t => List t.El
  | .map _ _ k v => List (k.El × v.El)
  | .sheetRef _ => SheetRef
  | .assetRef => AssetRef
  | .record _ ms => ms.El
  | .any => Value

/-- The values of a member. -/
def MemberType.El : MemberType → Type
  | .cell t => t.El
  | .rows form _ ms _ => form.Holder ms.El
  | .converted c => c.output.El
  | .ignored d => d.El

/-- The values of members, one after the other. -/
def Members.El : Members → Type
  | .nil => Unit
  | .cons _ t rest => t.El × rest.El

end

/-- A record type. -/
structure RecordType where
  head : RecordHead
  members : Members

/-- A row of a record type. -/
abbrev RecordType.Row (r : RecordType) : Type := r.members.El

/-- The cell type of records nested in a cell. -/
def RecordType.cell (r : RecordType) : CellType := .record r.head r.members

/-- The name of a record type. -/
abbrev RecordType.name (r : RecordType) : String := r.head.name

/-- The naming that a record uses where another is inherited. -/
def RecordHead.effectiveNaming (h : RecordHead) (inherited : Naming) : Naming :=
  h.naming.getD inherited

namespace RowsForm

variable {α : Type}

/-- The rows that are held. -/
def items : (form : RowsForm) → form.Holder α → List α
  | .list, xs => xs
  | .boxedSlice, xs => xs
  | .array _, xs => xs.val

/-- The holder with one row replaced; nothing changes beyond the end. -/
def set : (form : RowsForm) → form.Holder α → Nat → α → form.Holder α
  | .list, xs, i, x => xs.set i x
  | .boxedSlice, xs, i, x => xs.set i x
  | .array _, xs, i, x => ⟨xs.val.set i x, by simp [xs.property]⟩

@[simp] theorem items_set (form : RowsForm) (xs : form.Holder α) (i : Nat) (x : α) :
    form.items (form.set xs i x) = (form.items xs).set i x := by
  cases form <;> rfl

end RowsForm

/-- None comes before some. -/
def cmpOption {α : Type} (cmp : α → α → Ordering) : Option α → Option α → Ordering
  | none, none => .eq
  | none, some _ => .lt
  | some _, none => .gt
  | some a, some b => cmp a b

/-- Lists are ordered by their first difference. -/
def cmpList {α : Type} (cmp : α → α → Ordering) : List α → List α → Ordering
  | [], [] => .eq
  | [], _ :: _ => .lt
  | _ :: _, [] => .gt
  | a :: as, b :: bs => (cmp a b).then (cmpList cmp as bs)

/-- Pairs are ordered by their first difference. -/
def cmpPair {α β : Type} (cmpFirst : α → α → Ordering) (cmpSecond : β → β → Ordering)
    (a b : α × β) : Ordering :=
  (cmpFirst a.1 b.1).then (cmpSecond a.2 b.2)

/-- An order on the values of plain data. -/
def DataType.cmp : (d : DataType) → d.El → d.El → Ordering
  | .scalar s => s.cmp
  | .choice _ _ => fun a b => compare a.val b.val
  | .option d => cmpOption d.cmp
  | .list d => cmpList d.cmp
  | .pair a b => cmpPair a.cmp b.cmp

mutual

/-- The order in which sets and maps keep their keys. Dynamic values serve as no key: they stay in
the order in which they came. -/
def CellType.cmp : (t : CellType) → t.El → t.El → Ordering
  | .scalar s => s.cmp
  | .option t => cmpOption t.cmp
  | .sequence _ t => cmpList t.cmp
  | .array t _ => fun a b => cmpList t.cmp a.val b.val
  | .set _ t => cmpList t.cmp
  | .map _ _ k v => cmpList (cmpPair k.cmp v.cmp)
  | .sheetRef _ => SheetRef.cmp
  | .assetRef => AssetRef.cmp
  | .record _ ms => ms.cmp
  | .any => fun _ _ => .gt

/-- The order of the values of a member. -/
def MemberType.cmp : (t : MemberType) → t.El → t.El → Ordering
  | .cell t => t.cmp
  | .rows form _ ms _ => fun a b => cmpList ms.cmp (form.items a) (form.items b)
  | .converted c => c.output.cmp
  | .ignored d => d.cmp

/-- Records are ordered by their first member that differs. -/
def Members.cmp : (ms : Members) → ms.El → ms.El → Ordering
  | .nil => fun _ _ => .eq
  | .cons _ t rest => cmpPair t.cmp rest.cmp

end

/-- Members by index, the first first. -/
def Members.infos : Members → List MemberInfo
  | .nil => []
  | .cons info _ rest => info :: rest.infos

end TypedSheets
