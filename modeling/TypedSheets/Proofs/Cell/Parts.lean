import TypedSheets.Cell.Datum
import TypedSheets.Cell.Shape
import TypedSheets.Schema.Meaning

/-!
# The parts of a type

What is asked of a cell type is mostly asked of all types in it: of those of elements, keys and
values, and of the members of nested records at any depth.

## Main definitions

* `CellType.All` — all cell types and all member types in a cell type have a property
* `CellType.Static` — no value is dynamic; `CellType.StaticKeys` — no key is
* `CellType.RefFree` — no value is a reference or may hold one
* `CellType.OwnNames` — no record is named like a primitive type
* `CellType.Reverting` — every converter reads back what it writes
* `CellType.PlainRows` — no vertical member has a converter
* `CellType.DistinctColumns` — no two members of a record share a column

## Main results

* `CellType.staticKeys_of_static` — where no value is dynamic, no key is
* `Members.wireName_ne_of_nodup` — members with columns of their own
-/

namespace TypedSheets

variable {P P' : CellType → Prop} {Q Q' : MemberType → Prop}

mutual

/-- All cell types in a cell type, itself included, and all member types in it. -/
def CellType.All (P : CellType → Prop) (Q : MemberType → Prop) : CellType → Prop
  | .scalar s => P (.scalar s)
  | .option t => P (.option t) ∧ t.All P Q
  | .sequence form t => P (.sequence form t) ∧ t.All P Q
  | .array t length => P (.array t length) ∧ t.All P Q
  | .set form t => P (.set form t) ∧ t.All P Q
  | .map form shared k v => P (.map form shared k v) ∧ k.All P Q ∧ v.All P Q
  | .sheetRef target => P (.sheetRef target)
  | .assetRef => P .assetRef
  | .record head ms => P (.record head ms) ∧ ms.All P Q
  | .any => P .any

/-- All cell types and member types in the type of a member. -/
def MemberType.All (P : CellType → Prop) (Q : MemberType → Prop) : MemberType → Prop
  | .cell t => Q (.cell t) ∧ t.All P Q
  | .rows form head ms via => Q (.rows form head ms via) ∧ ms.All P Q
  | .converted c => Q (.converted c)
  | .ignored d => Q (.ignored d)

/-- All cell types and member types in the types of members. -/
def Members.All (P : CellType → Prop) (Q : MemberType → Prop) : Members → Prop
  | .nil => True
  | .cons _ t rest => t.All P Q ∧ rest.All P Q

end

mutual

theorem CellType.all_true : (t : CellType) → t.All (fun _ => True) fun _ => True
  | .scalar _ => trivial
  | .option t => ⟨trivial, t.all_true⟩
  | .sequence _ t => ⟨trivial, t.all_true⟩
  | .array t _ => ⟨trivial, t.all_true⟩
  | .set _ t => ⟨trivial, t.all_true⟩
  | .map _ _ k v => ⟨trivial, k.all_true, v.all_true⟩
  | .sheetRef _ => trivial
  | .assetRef => trivial
  | .record _ ms => ⟨trivial, ms.all_true⟩
  | .any => trivial

theorem MemberType.all_true : (t : MemberType) → t.All (fun _ => True) fun _ => True
  | .cell t => ⟨trivial, t.all_true⟩
  | .rows _ _ ms _ => ⟨trivial, ms.all_true⟩
  | .converted _ => trivial
  | .ignored _ => trivial

theorem Members.all_true : (ms : Members) → ms.All (fun _ => True) fun _ => True
  | .nil => trivial
  | .cons _ t rest => ⟨t.all_true, rest.all_true⟩

end

section Decidable

variable [DecidablePred P] [DecidablePred Q]

mutual

/-- Whether all types in a cell type have properties that can be decided. -/
def CellType.decideAll : (t : CellType) → Decidable (t.All P Q)
  | .scalar s => inferInstanceAs (Decidable (P (.scalar s)))
  | .option t => @instDecidableAnd _ _ _ t.decideAll
  | .sequence _ t => @instDecidableAnd _ _ _ t.decideAll
  | .array t _ => @instDecidableAnd _ _ _ t.decideAll
  | .set _ t => @instDecidableAnd _ _ _ t.decideAll
  | .map _ _ k v => @instDecidableAnd _ _ _ (@instDecidableAnd _ _ k.decideAll v.decideAll)
  | .sheetRef target => inferInstanceAs (Decidable (P (.sheetRef target)))
  | .assetRef => inferInstanceAs (Decidable (P .assetRef))
  | .record _ ms => @instDecidableAnd _ _ _ ms.decideAll
  | .any => inferInstanceAs (Decidable (P .any))

/-- Whether all types in the type of a member have properties that can be decided. -/
def MemberType.decideAll : (t : MemberType) → Decidable (t.All P Q)
  | .cell t => @instDecidableAnd _ _ _ t.decideAll
  | .rows _ _ ms _ => @instDecidableAnd _ _ _ ms.decideAll
  | .converted c => inferInstanceAs (Decidable (Q (.converted c)))
  | .ignored d => inferInstanceAs (Decidable (Q (.ignored d)))

/-- Whether all types in the types of members have properties that can be decided. -/
def Members.decideAll : (ms : Members) → Decidable (ms.All P Q)
  | .nil => .isTrue trivial
  | .cons _ t rest => @instDecidableAnd _ _ t.decideAll rest.decideAll

end

instance (t : CellType) : Decidable (t.All P Q) := t.decideAll

instance (ms : Members) : Decidable (ms.All P Q) := ms.decideAll

end Decidable

/-! ### Dynamic values -/

/-- A cell type other than that of dynamic values. -/
def CellType.IsStatic : CellType → Prop
  | .any => False
  | _ => True

/-- No value of the type, and none in it, is dynamic. -/
def CellType.Static (t : CellType) : Prop := t.All IsStatic fun _ => True

/-- No value of the members is dynamic. -/
def Members.Static (ms : Members) : Prop := ms.All CellType.IsStatic fun _ => True

instance : DecidablePred CellType.IsStatic
  | .any => .isFalse id
  | .scalar _ | .option _ | .sequence _ _ | .array _ _ | .set _ _ | .map _ _ _ _ | .sheetRef _
  | .assetRef | .record _ _ => .isTrue trivial

instance (t : CellType) : Decidable t.Static := inferInstanceAs (Decidable (t.All _ _))

instance (ms : Members) : Decidable ms.Static := inferInstanceAs (Decidable (ms.All _ _))

/-- The keys of a set or map are not dynamic: dynamic values have no order. -/
def CellType.HasStaticKeys : CellType → Prop
  | .set _ t => t.Static
  | .map _ _ k _ => k.Static
  | _ => True

/-- No key in a value of the type is dynamic. -/
def CellType.StaticKeys (t : CellType) : Prop := t.All HasStaticKeys fun _ => True

/-- No key in the values of the members is dynamic. -/
def Members.StaticKeys (ms : Members) : Prop := ms.All CellType.HasStaticKeys fun _ => True

instance : DecidablePred CellType.HasStaticKeys
  | .set _ t => inferInstanceAs (Decidable t.Static)
  | .map _ _ k _ => inferInstanceAs (Decidable k.Static)
  | .scalar _ | .option _ | .sequence _ _ | .array _ _ | .sheetRef _ | .assetRef | .record _ _
  | .any => .isTrue trivial

instance (t : CellType) : Decidable t.StaticKeys := inferInstanceAs (Decidable (t.All _ _))

instance (ms : Members) : Decidable ms.StaticKeys := inferInstanceAs (Decidable (ms.All _ _))

mutual

/-- Where no value is dynamic, no key is. -/
theorem CellType.staticKeys_of_static : (t : CellType) → t.Static → t.StaticKeys
  | .scalar _, _ => trivial
  | .option t, h => ⟨trivial, t.staticKeys_of_static h.2⟩
  | .sequence _ t, h => ⟨trivial, t.staticKeys_of_static h.2⟩
  | .array t _, h => ⟨trivial, t.staticKeys_of_static h.2⟩
  | .set _ t, h => ⟨h.2, t.staticKeys_of_static h.2⟩
  | .map _ _ k v, h => ⟨h.2.1, k.staticKeys_of_static h.2.1, v.staticKeys_of_static h.2.2⟩
  | .sheetRef _, _ => trivial
  | .assetRef, _ => trivial
  | .record _ ms, h => ⟨trivial, ms.staticKeys_of_static h.2⟩
  | .any, h => h.elim

theorem MemberType.staticKeys_of_static : (t : MemberType) →
    t.All CellType.IsStatic (fun _ => True) → t.All CellType.HasStaticKeys fun _ => True
  | .cell t, h => ⟨trivial, t.staticKeys_of_static h.2⟩
  | .rows _ _ ms _, h => ⟨trivial, ms.staticKeys_of_static h.2⟩
  | .converted _, _ => trivial
  | .ignored _, _ => trivial

theorem Members.staticKeys_of_static : (ms : Members) → ms.Static → ms.StaticKeys
  | .nil, _ => trivial
  | .cons _ t rest, h => ⟨t.staticKeys_of_static h.1, rest.staticKeys_of_static h.2⟩

end

/-! ### References -/

/-- A cell type other than those of references and dynamic values. -/
def CellType.IsRefFree : CellType → Prop
  | .sheetRef _ => False
  | .assetRef => False
  | .any => False
  | _ => True

/-- No value of the type holds a reference. -/
def CellType.RefFree (t : CellType) : Prop := t.All IsRefFree fun _ => True

/-- No value of the members holds a reference. -/
def Members.RefFree (ms : Members) : Prop := ms.All CellType.IsRefFree fun _ => True

instance : DecidablePred CellType.IsRefFree
  | .sheetRef _ | .assetRef | .any => .isFalse id
  | .scalar _ | .option _ | .sequence _ _ | .array _ _ | .set _ _ | .map _ _ _ _
  | .record _ _ => .isTrue trivial

instance (t : CellType) : Decidable t.RefFree := inferInstanceAs (Decidable (t.All _ _))

instance (ms : Members) : Decidable ms.RefFree := inferInstanceAs (Decidable (ms.All _ _))

/-! ### Names -/

/-- A record is named like a primitive type, which its written form then stands for. -/
def RecordHead.hidesPrimitive (h : RecordHead) : Bool :=
  (SemanticType.ofIdent? h.name).any SemanticType.isPrimitive

/-- A record in a cell is not named like a primitive type. -/
def CellType.HasOwnName : CellType → Prop
  | .record head _ => head.hidesPrimitive = false
  | _ => True

/-- No record in the type is named like a primitive type. -/
def CellType.OwnNames (t : CellType) : Prop := t.All HasOwnName fun _ => True

/-- No record in the members is named like a primitive type. -/
def Members.OwnNames (ms : Members) : Prop := ms.All CellType.HasOwnName fun _ => True

instance : DecidablePred CellType.HasOwnName
  | .record head _ => inferInstanceAs (Decidable (head.hidesPrimitive = false))
  | .scalar _ | .option _ | .sequence _ _ | .array _ _ | .set _ _ | .map _ _ _ _ | .sheetRef _
  | .assetRef | .any => .isTrue trivial

instance (t : CellType) : Decidable t.OwnNames := inferInstanceAs (Decidable (t.All _ _))

instance (ms : Members) : Decidable ms.OwnNames := inferInstanceAs (Decidable (ms.All _ _))

/-! ### Converters -/

/-- A converter of rows reads back what it writes, of all rows that it can make. -/
def RowsConverter.Reverts {α : Type} (c : RowsConverter) (make : Datum → α) (parts : α → Datum) :
    Prop :=
  ∀ d, c.read make (c.print parts (make d)) = .ok (make d)

/-- A converter reads back what it writes. -/
def MemberType.Reverts : MemberType → Prop
  | .converted c => c.Reverts
  | .rows form _ ms (some c) =>
    c.Reverts (form.ofDatum fun d => ms.ofDatum d.items)
      (form.toDatum fun x => .list (ms.toDatum x))
  | _ => True

/-- All converters in the type read back what they write. -/
def CellType.Reverting (t : CellType) : Prop := t.All (fun _ => True) MemberType.Reverts

/-- All converters of the members read back what they write. -/
def Members.Reverting (ms : Members) : Prop := ms.All (fun _ => True) MemberType.Reverts

/-- The rows of a vertical member are written in a list of cells: it has no converter. -/
def MemberType.HasPlainRows : MemberType → Prop
  | .rows _ _ _ via => via = none
  | _ => True

/-- No vertical member in the type has a converter. -/
def CellType.PlainRows (t : CellType) : Prop := t.All (fun _ => True) MemberType.HasPlainRows

/-- None of the members, and none in them, is a vertical one with a converter. -/
def Members.PlainRows (ms : Members) : Prop := ms.All (fun _ => True) MemberType.HasPlainRows

instance : DecidablePred MemberType.HasPlainRows
  | .rows _ _ _ none => .isTrue rfl
  | .rows _ _ _ (some _) => .isFalse (Option.some_ne_none _)
  | .cell _ | .converted _ | .ignored _ => .isTrue trivial

instance (ms : Members) : Decidable ms.PlainRows := inferInstanceAs (Decidable (ms.All _ _))

/-! ### Columns -/

/-- Whether a member is data: it has a column. -/
def MemberType.isData : MemberType → Bool
  | .ignored _ => false
  | _ => true

/-- The names of the members that have a column. -/
def Members.dataNames : Members → List String
  | .nil => []
  | .cons info t rest => if t.isData then info.name :: rest.dataNames else rest.dataNames

/-- Under every naming the members have different columns. -/
def Members.HaveDistinctColumns (ms : Members) : Prop :=
  ∀ n : Naming, (ms.dataNames.map n.wireName).Nodup

/-- A record in a cell has different columns for its members. -/
def CellType.HasDistinctColumns : CellType → Prop
  | .record _ ms => ms.HaveDistinctColumns
  | _ => True

/-- A vertical record has different columns for its members. -/
def MemberType.HasDistinctColumns : MemberType → Prop
  | .rows _ _ ms _ => ms.HaveDistinctColumns
  | _ => True

/-- No two members of a record in the type share a column. -/
def CellType.DistinctColumns (t : CellType) : Prop :=
  t.All CellType.HasDistinctColumns MemberType.HasDistinctColumns

/-- No two of the members share a column, nor do two members of a record in them. -/
def Members.DistinctColumns (ms : Members) : Prop :=
  ms.HaveDistinctColumns ∧ ms.All CellType.HasDistinctColumns MemberType.HasDistinctColumns

instance (ms : Members) : Decidable ms.HaveDistinctColumns :=
  decidable_of_iff (∀ n ∈ Naming.all, (ms.dataNames.map n.wireName).Nodup)
    ⟨fun h n => h n (by cases n <;> decide), fun h n _ => h n⟩

instance : DecidablePred CellType.HasDistinctColumns
  | .record _ ms => inferInstanceAs (Decidable ms.HaveDistinctColumns)
  | .scalar _ | .option _ | .sequence _ _ | .array _ _ | .set _ _ | .map _ _ _ _ | .sheetRef _
  | .assetRef | .any => .isTrue trivial

instance : DecidablePred MemberType.HasDistinctColumns
  | .rows _ _ ms _ => inferInstanceAs (Decidable ms.HaveDistinctColumns)
  | .cell _ | .converted _ | .ignored _ => .isTrue trivial

instance (t : CellType) : Decidable t.DistinctColumns := inferInstanceAs (Decidable (t.All _ _))

instance (ms : Members) : Decidable ms.DistinctColumns := inferInstanceAs (Decidable (_ ∧ _))

section Nodup

variable {info : MemberInfo} {t : MemberType} {rest : Members} {n : Naming}
  (h : ((Members.cons info t rest).dataNames.map n.wireName).Nodup)

include h

theorem Members.nodup_columns_tail : (rest.dataNames.map n.wireName).Nodup := by
  rw [Members.dataNames] at h
  split at h
  · exact (List.nodup_cons.mp h).2
  · exact h

/-- The column of a member is none of the later members. -/
theorem Members.wireName_ne_of_nodup (ht : t.isData = true) :
    ∀ name ∈ rest.dataNames, n.wireName name ≠ n.wireName info.name := by
  intro name hname heq
  rw [Members.dataNames, if_pos ht, List.map_cons, List.nodup_cons] at h
  exact h.1 (heq ▸ List.mem_map_of_mem hname)

end Nodup

theorem Members.HaveDistinctColumns.tail {info : MemberInfo} {t : MemberType} {rest : Members}
    (h : (Members.cons info t rest).HaveDistinctColumns) : rest.HaveDistinctColumns :=
  fun n => Members.nodup_columns_tail (h n)

theorem Members.DistinctColumns.tail {info : MemberInfo} {t : MemberType} {rest : Members}
    (h : (Members.cons info t rest).DistinctColumns) : rest.DistinctColumns :=
  ⟨h.1.tail, h.2.2⟩

end TypedSheets
