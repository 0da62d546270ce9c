import TypedSheets.Proofs.Bake.Report
import TypedSheets.Proofs.Link.Replaced

/-!
# Containers up to order

What a container says about rows by the names of sheets and the keys of rows does not depend on the
order of sheets, nor on that of the rows in them. Only the places of rows do. So two containers with
the same rows in different orders are linked to containers that have, under each name and key, the
same row, with references that address the same rows by sheet and key.

Where a linker finds a row shows in what references are resolved to, and nowhere else. Two linkers
that find the same rows, each at places of its own, report the same errors and make rows that agree
once the places of the one are replaced by those of the other.

## Main definitions

* `Linker.FindsAlike` — two linkers find the same rows and assets
* `Linker.moved` — resolved references with the places that a linker gives
* `Linker.Resolves` — references that are unresolved or lead where a linker finds the row
* `Container.row?` — the row of a sheet and key
* `Container.Locates` — a row key is the place of the row of a sheet and key
* `AnyTable.Reordered`, `Container.Reordered` — the same rows and sheets in some order
* `TargetRef.SameRow`, `AnyRow.Alike` — the same references and rows, at places in two containers

## Main results

* `Linker.FindsAlike.rewrite_eq`, `Members.relinked_eq_mapInPlace` — rows linked by the one are rows
  linked by the other, with places replaced
* `Members.linkErrors_congr` — both report the same errors
* `Members.everyRef_resolves` — the references in a linked row lead where the linker finds the rows
* `Container.Reordered.row?_eq` — the order does not matter for what is under a name and key
* `Container.Reordered.findsAlike` — nor for what is found
* `Container.Reordered.alike_linked` — linked containers have the same rows
* `Container.Reordered.errors_perm` — and what is not found in a sheet is the same
-/

namespace TypedSheets

namespace Linker

/-- Two linkers find the same rows, each perhaps at another place, and the same assets. -/
structure FindsAlike (l l' : Linker) : Prop where
  row : ∀ target key, (l.row target key).isSome = (l'.row target key).isSome
  asset_eq : l.asset = l'.asset

/-- Every resolved reference leads to the place that a linker gives for the key. -/
def moved (l : Linker) : RefMap :=
  ⟨fun target r => { r with resolved := r.resolved.bind fun _ => l.row target r.key }, fun a => a⟩

/-- The reference is unresolved, or leads to the place that a linker gives for the key. -/
def Resolves (l : Linker) (r : TargetRef) : Prop :=
  r.ref.resolved = none ∨ r.ref.resolved = l.row r.target r.ref.key

variable {l l' : Linker}

theorem resolves_refMap (r : TargetRef) : l.Resolves (l.refMap.targetRef r) := by
  by_cases h : r.ref.isEmpty = true
  · exact Or.inl (if_pos h)
  · exact Or.inr (if_neg h)

theorem resolves_of_unresolved {r : TargetRef} (h : r.IsUnresolved) : l.Resolves r := Or.inl h

/-- Unresolved references have no place to be replaced. -/
theorem moved_of_unresolved (l : Linker) {r : TargetRef} (h : r.IsUnresolved) :
    l.moved.targetRef r = r := by
  obtain ⟨target, key, resolved⟩ := r
  obtain rfl : resolved = none := h
  rfl

namespace FindsAlike

variable (h : l.FindsAlike l')

include h

/-- What one linker makes of references is what the other does, at its own places. -/
theorem moved_comp_refMap : l'.moved.comp l.refMap = l'.refMap := by
  have hrow : ∀ target key, ((l.row target key).bind fun _ => l'.row target key) =
      l'.row target key := by
    intro target key
    have hfound := h.row target key
    cases hl : l.row target key with
    | some k => rfl
    | none =>
      -- the other linker does not find the row either
      rw [hl] at hfound
      exact (Option.not_isSome_iff_eq_none.mp (by simp [← hfound])).symm
  rw [RefMap.comp, refMap, refMap]
  congr 1
  · funext target r
    by_cases hempty : r.isEmpty = true
    · simp [moved, linkedRef, hempty]
    · simp [moved, linkedRef, hempty, hrow]
  · funext a
    simp [moved, linkedAsset, h.asset_eq]

/-- References that are told apart by their places are so by the places of the other linker. -/
theorem keepsOrder : l'.moved.KeepsOrder l.Resolves fun _ => True := by
  refine ⟨?_, fun _ _ _ _ => rfl⟩
  rintro target ⟨key, resolved⟩ ⟨key', resolved'⟩ hr hr'
  by_cases hkey : key = key'
  · -- references with one key are both resolved to one place, or one of them is not resolved
    subst hkey
    have hself : ∀ k : RowKey, k.cmp k = .eq := fun k => RowKey.cmp_lawful.compare_self
    have hfound := h.row target key
    rcases hr with hr | hr <;> rcases hr' with hr' | hr' <;>
      cases hl : l.row target key <;> cases hl' : l'.row target key <;>
      simp_all [moved, SheetRef.cmp]
  · have hcmp : (⟨key, resolved⟩ : SheetRef).cmp ⟨key', resolved'⟩ = compare key key' :=
      SheetRef.cmp_of_key_ne hkey
    exact (SheetRef.cmp_of_key_ne hkey).trans hcmp.symm

/-- Reading does not depend on the places. -/
theorem unnoticed : l'.moved.Unnoticed l.Resolves fun _ => True where
  keepsNew := ⟨fun _ _ => rfl, fun _ _ => rfl⟩
  keepsOrder := h.keepsOrder
  row_new _ _ := Or.inl rfl
  asset_new _ _ := trivial

/-! ### Values -/

theorem linkAsset_eq (site : ReferenceSite) (a : AssetRef) :
    l.linkAsset site a = l'.linkAsset site a := by
  rw [linkAsset, linkAsset, h.asset_eq]

/-- Where nothing is resolved, the same linkers find something to change. -/
theorem link_changed {site : ReferenceSite} {v : Value}
    (hv : v.EveryRef TargetRef.IsUnresolved AssetRef.IsUnresolved) :
    (l.link site v).changed = (l'.link site v).changed := by
  refine link_changed_congr ?_ (fun a _ => congrArg Linked.changed (h.linkAsset_eq site a)) v hv
  intro r hr
  have hfound := h.row r.target r.ref.key
  have hnone : r.ref.resolved = none := hr
  simp only [linkRow, hnone]
  -- references to nothing are left alone
  by_cases hempty : r.ref.isEmpty = true
  · simp [hempty]
  · -- what is found is a change, wherever it is
    cases hl : l.row r.target r.ref.key <;> cases hl' : l'.row r.target r.ref.key <;> simp_all

/-- In a cell without resolved references both linkers rewrite the same, at places of their own. -/
theorem rewrite_eq (t : CellType) (n : Naming) {x : t.El} (hx : t.Unresolved x) :
    l'.rewrite (t.print n) (t.read n) x =
      t.mapInPlace l'.moved (l.rewrite (t.print n) (t.read n) x) := by
  have hself : t.mapInPlace l'.moved x = x := t.mapInPlace_eq_self
    (CellType.everyRef_imp (fun _ => l'.moved_of_unresolved) (fun _ _ => rfl) hx)
  -- what one linker makes of the printed value is read in the same way with its places replaced
  have hresolves : ((t.print n x).mapRefs l.refMap).EveryRef l.Resolves fun _ => True :=
    Value.everyRef_mapRefs _ (Value.everyRef_of_forall l.resolves_refMap (fun _ => trivial) _)
  have hread := t.read_mapRefs h.unnoticed n _ hresolves
  rw [Value.mapRefs_mapRefs, h.moved_comp_refMap] at hread
  rw [rewrite, rewrite, ← h.link_changed (t.everyRef_print n hx)]
  split
  · obtain ⟨_, _, hfail, hfail'⟩ | ⟨y, hy, hy'⟩ := hread.outcomes
    · -- what cannot be read back stays as it is
      rw [hfail, hfail']
      exact hself.symm
    · rw [hy, hy']
      rfl
  · exact hself.symm

end FindsAlike

mutual

/-- What is not found by one linker is not found by the other. -/
theorem FindsAlike.link_errors (h : l.FindsAlike l') (site : ReferenceSite) : (v : Value) →
    (l.link site v).errors = (l'.link site v).errors
  | .sheetRef r => by
    change (l.linkRow site r).errors = (l'.linkRow site r).errors
    simp only [linkRow]
    -- only a reference to something is looked up
    by_cases hempty : r.ref.isEmpty = true
    · simp [hempty]
    · simp [hempty, h.row]
  | .assetRef a =>
    have hasset : (l.linkAsset site a).errors = (l'.linkAsset site a).errors :=
      congrArg Linked.errors (h.linkAsset_eq site a)
    hasset
  | .list items => h.linkItems_errors site items
  | .map entries => h.linkEntries_errors site entries
  | .record cells => h.linkCells_errors site cells
  | .null => rfl
  | .bool _ => rfl
  | .int _ => rfl
  | .float _ => rfl
  | .text _ => rfl

theorem FindsAlike.linkItems_errors (h : l.FindsAlike l') (site : ReferenceSite) :
    (vs : List Value) → (l.linkItems site vs).errors = (l'.linkItems site vs).errors
  | [] => rfl
  | v :: rest => congrArg₂ (· ++ ·) (h.link_errors site v) (h.linkItems_errors site rest)

theorem FindsAlike.linkEntries_errors (h : l.FindsAlike l') (site : ReferenceSite) :
    (es : List (Value × Value)) →
    (l.linkEntries site es).errors = (l'.linkEntries site es).errors
  | [] => rfl
  | (k, v) :: rest => congrArg₂ (· ++ ·)
    (congrArg₂ (· ++ ·) (h.link_errors site k) (h.link_errors site v))
    (h.linkEntries_errors site rest)

theorem FindsAlike.linkCells_errors (h : l.FindsAlike l') (site : ReferenceSite) :
    (cells : List (String × Value)) →
    (l.linkCells site cells).errors = (l'.linkCells site cells).errors
  | [] => rfl
  | (_, v) :: rest => congrArg₂ (· ++ ·) (h.link_errors site v) (h.linkCells_errors site rest)

end

end Linker

/-! ### Rows -/

section Rows

variable {l l' : Linker}

mutual

theorem MemberType.relinked_eq_mapInPlace (h : l.FindsAlike l') (d : RecordDecl)
    (info : MemberInfo) : (t : MemberType) → {x : t.El} → t.Unresolved x →
    t.relinked l' d info x = t.mapInPlace l'.moved (t.relinked l d info x)
  | .cell t, x, hx => by
    simp only [MemberType.relinked]
    split
    · exact h.rewrite_eq t .pascal hx.2
    · exact (t.mapInPlace_eq_self
        (CellType.everyRef_imp (fun _ => l'.moved_of_unresolved) (fun _ _ => rfl) hx.2)).symm
  | .rows _ head ms _, _, hx => (RowsForm.map_map_of_forall fun y hy =>
    (ms.relinked_eq_mapInPlace h (head.decl ms) (hx.2 y hy)).symm).symm
  | .converted _, _, _ => rfl
  | .ignored _, _, _ => rfl

/-- A row that one linker links is the row that the other links, with the places replaced. -/
theorem Members.relinked_eq_mapInPlace (h : l.FindsAlike l') (d : RecordDecl) : (ms : Members) →
    {x : ms.El} → ms.Unresolved x →
    ms.relinked l' d x = ms.mapInPlace l'.moved (ms.relinked l d x)
  | .nil, _, _ => rfl
  | .cons info t rest, _, hx =>
    Prod.ext (t.relinked_eq_mapInPlace h d info hx.1) (rest.relinked_eq_mapInPlace h d hx.2)

end

mutual

theorem MemberType.linkErrors_congr (h : l.FindsAlike l') (d : RecordDecl) (info : MemberInfo)
    (place : String → List Nat → ReferenceSite) : (t : MemberType) → (x : t.El) →
    t.linkErrors l d info place x = t.linkErrors l' d info place x
  | .cell t, x => by
    simp only [MemberType.linkErrors]
    split
    · exact h.link_errors _ _
    · rfl
  | .rows _ head ms _, _ => List.flatMap_congr fun p _ =>
    ms.linkErrors_congr h (head.decl ms) _ p.1
  | .converted _, _ => rfl
  | .ignored _, _ => rfl

/-- The references in a row that one linker does not find are those that the other does not find. -/
theorem Members.linkErrors_congr (h : l.FindsAlike l') (d : RecordDecl)
    (place : String → List Nat → ReferenceSite) : (ms : Members) → (x : ms.El) →
    ms.linkErrors l d place x = ms.linkErrors l' d place x
  | .nil, _ => rfl
  | .cons info t rest, x => congrArg₂ (· ++ ·) (t.linkErrors_congr h d info place x.1)
    (rest.linkErrors_congr h d place x.2)

end

/-- The references in a linked row are unresolved or lead where the linker finds the rows. -/
theorem Members.everyRef_resolves (l : Linker) (d : RecordDecl) {ms : Members} {x : ms.El}
    (hx : ms.Unresolved x) : ms.EveryRef l.Resolves (fun _ => True) (ms.relinked l d x) :=
  Members.everyRef_relinked l (fun _ _ => Or.inl rfl) (fun _ _ => trivial) l.resolves_refMap
    (fun _ => trivial) d ms
    (Members.everyRef_imp (fun _ => Linker.resolves_of_unresolved) (fun _ _ => trivial) hx)

end Rows

/-! ## Containers -/

variable {c : Catalog}

/-! ### Rows by key -/

namespace Table

variable {t : TableType} {table x y : Table t} {key : String}

/-- The row of a key. -/
def byKey? (table : Table t) (key : String) : Option t.Row := (table.position? key).bind table.get?

/-- The row that is found under a key is the one that has it. -/
theorem Indexed.byKey?_eq_some_iff (h : table.Indexed) {row : t.Row} :
    table.byKey? key = some row ↔ row ∈ table.rows.toList ∧ t.key row = key := by
  rw [byKey?, Option.bind_eq_some_iff]
  constructor
  · rintro ⟨i, hi, hrow⟩
    rw [get?, ← Array.getElem?_toList] at hrow
    rw [h.position?_eq_some_iff, keys, List.getElem?_map, hrow, Option.map_some,
      Option.some_inj] at hi
    exact ⟨List.mem_of_getElem? hrow, hi⟩
  · rintro ⟨hrow, rfl⟩
    obtain ⟨i, hi⟩ := List.mem_iff_getElem?.mp hrow
    refine ⟨i, h.position?_eq_some_iff.mpr ?_, ?_⟩
    · rw [keys, List.getElem?_map, hi, Option.map_some]
    · rw [get?, ← Array.getElem?_toList, hi]

/-- Under a key there is the same row, whatever the order of the rows. -/
theorem byKey?_congr (hx : x.Indexed) (hy : y.Indexed) (h : x.rows.toList.Perm y.rows.toList) :
    x.byKey? key = y.byKey? key := by
  ext row
  rw [hx.byKey?_eq_some_iff, hy.byKey?_eq_some_iff, h.mem_iff]

/-- Linking a table links the row under a key. -/
theorem byKey?_mapReferences (l : Linker) (table : Table t) (key : String) :
    (mapReferences l table).1.byKey? key =
      (table.byKey? key).map (t.record.members.relinked l t.record.decl) := by
  have hget : ∀ i, (mapReferences l table).1.get? i =
      (table.get? i).map (t.record.members.relinked l t.record.decl) := by
    intro i
    rw [get?, ← Array.getElem?_toList, rows_mapReferences, List.getElem?_map,
      Array.getElem?_toList, get?]
  simp only [byKey?, Option.map_bind, Function.comp_def, ← hget]
  rfl

end Table

/-- A row of some type of a catalog. -/
structure AnyRow (c : Catalog) where
  id : c.Id
  row : (c.type id).Row

/-- The members of a row. -/
abbrev AnyRow.members (x : AnyRow c) : Members := (c.type x.id).record.members

/-- A row with its references linked. -/
def AnyRow.relinked (l : Linker) (x : AnyRow c) : AnyRow c :=
  ⟨x.id, x.members.relinked l (c.type x.id).record.decl x.row⟩

/-- The row of a key. -/
def AnyTable.row? (t : AnyTable c) (key : String) : Option (AnyRow c) :=
  (t.table.byKey? key).map fun row => ⟨t.id, row⟩

theorem AnyTable.row?_linked (l : Linker) (t : AnyTable c) (key : String) :
    (t.linked l).row? key = (t.row? key).map (AnyRow.relinked l) := by
  have hlinked := t.table.byKey?_mapReferences l key
  rw [row?, row?, linked, hlinked, Option.map_map, Option.map_map]
  rfl

namespace Container

variable {b b' : Container c} {assets : AssetResolver} {sheet key : String}

/-- The row of a sheet and key. -/
def row? (b : Container c) (sheet key : String) : Option (AnyRow c) :=
  (b.sheet? sheet).bind fun t => t.row? key

/-- The row key is the place of the row of that sheet and key. -/
def Locates (b : Container c) (k : RowKey) (sheet key : String) : Prop :=
  ∃ t, b.tables[k.sheet.toNat]? = some t ∧ t.name = sheet ∧
    t.table.position? key = some k.row.toNat

theorem sheet?_linked : (b.linked assets).sheet? sheet =
    (b.sheet? sheet).map (AnyTable.linked (b.linker assets)) := by
  simp only [sheet?, Option.map_bind, Function.comp_def, getElem?_tables_linked]
  rfl

/-- Linking a container links the row of a sheet and key. -/
theorem row?_linked : (b.linked assets).row? sheet key =
    (b.row? sheet key).map (AnyRow.relinked (b.linker assets)) := by
  rw [row?, row?, sheet?_linked, Option.bind_map, Option.map_bind]
  congr 1
  funext t
  exact t.row?_linked (b.linker assets) key

end Container

/-! ### The same rows in some order -/

/-- Two tables of one name and type have the same rows, in some order. -/
inductive AnyTable.Reordered : AnyTable c → AnyTable c → Prop
  | mk (i : c.Id) {x y : Table (c.type i)} (hname : x.name = y.name)
    (hrows : x.rows.toList.Perm y.rows.toList) : Reordered ⟨i, x⟩ ⟨i, y⟩

namespace AnyTable.Reordered

variable {t t' : AnyTable c} {key : String}

theorem name_eq (h : t.Reordered t') : t.name = t'.name := by
  cases h with
  | mk i hname hrows => exact hname

theorem recordName_eq (h : t.Reordered t') : t.recordName = t'.recordName := by
  cases h with
  | mk i hname hrows => rfl

theorem keys_perm (h : t.Reordered t') : t.keys.Perm t'.keys := by
  cases h with
  | mk i hname hrows => exact hrows.map _

theorem row?_eq (h : t.Reordered t') (ht : t.table.Indexed) (ht' : t'.table.Indexed) :
    t.row? key = t'.row? key := by
  cases h with
  | mk i hname hrows => rw [AnyTable.row?, AnyTable.row?, Table.byKey?_congr ht ht' hrows]

/-- What two linkers that find the same do not find in the rows is the same. -/
theorem errors_perm (h : t.Reordered t') {l l' : Linker} (hl : l.FindsAlike l') :
    (t.table.mapReferences l).2.Perm (t'.table.mapReferences l').2 := by
  cases h with
  | @mk i x y hname hrows =>
    rw [Table.errors_mapReferences, Table.errors_mapReferences]
    have hrow : ∀ row, (c.type i).record.members.linkErrors l (c.type i).record.decl
        (fun path is => ⟨x.name, (c.type i).key row, path, is⟩) row =
          (c.type i).record.members.linkErrors l' (c.type i).record.decl
            (fun path is => ⟨y.name, (c.type i).key row, path, is⟩) row := by
      intro row
      rw [hname]
      exact Members.linkErrors_congr hl _ _ _ row
    rw [List.flatMap_congr fun row _ => hrow row]
    exact hrows.flatMap_right _

end AnyTable.Reordered

/-- Two containers have the same sheets in some order, with the same rows in some order. -/
def Container.Reordered (b b' : Container c) : Prop :=
  ∃ ts, List.Forall₂ AnyTable.Reordered b.tables.toList ts ∧ ts.Perm b'.tables.toList

namespace Container

variable {b b' : Container c} {assets : AssetResolver} {target sheet key : String}

/-- No two sheets of a record type have one key. -/
def KeysApart (b : Container c) : Prop :=
  ∀ t ∈ b.tables.toList, ∀ t' ∈ b.tables.toList, t.recordName = t'.recordName →
    ∀ key ∈ t.keys, key ∈ t'.keys → t.name = t'.name

namespace Reordered

variable (h : b.Reordered b')

include h

theorem exists_of_mem_right {t' : AnyTable c} (ht' : t' ∈ b'.tables.toList) :
    ∃ t ∈ b.tables.toList, t.Reordered t' := by
  obtain ⟨ts, hts, hperm⟩ := h
  exact exists_of_mem_forall₂ hts (hperm.mem_iff.mpr ht')

theorem exists_of_mem_left {t : AnyTable c} (ht : t ∈ b.tables.toList) :
    ∃ t' ∈ b'.tables.toList, t.Reordered t' := by
  obtain ⟨ts, hts, hperm⟩ := h
  obtain ⟨t', ht', hsame⟩ := exists_of_mem_forall₂ hts.flip ht
  exact ⟨t', hperm.mem_iff.mp ht', hsame⟩

/-- The sheets have the same names. -/
theorem sheetNames_perm : b.sheetNames.Perm b'.sheetNames := by
  obtain ⟨ts, hts, hperm⟩ := h
  rw [sheetNames, map_eq_map_of_forall₂ hts fun _ _ hsame => hsame.name_eq]
  exact hperm.map _

/-- Both have no table of a name, or have two with the same rows. -/
theorem sheet?_cases (hb : b.Indexed) (hb' : b'.Indexed) (sheet : String) :
    (b.sheet? sheet = none ∧ b'.sheet? sheet = none) ∨
      ∃ t t', b.sheet? sheet = some t ∧ b'.sheet? sheet = some t' ∧ t.Reordered t' := by
  cases hsheet : b.sheet? sheet with
  | none =>
    refine Or.inl ⟨rfl, ?_⟩
    rw [hb'.sheet?_eq_none_iff, ← h.sheetNames_perm.mem_iff]
    exact hb.sheet?_eq_none_iff.mp hsheet
  | some t =>
    obtain ⟨ht, hname⟩ := hb.sheet?_eq_some_iff.mp hsheet
    obtain ⟨t', ht', hsame⟩ := h.exists_of_mem_left ht
    exact Or.inr ⟨t, t', rfl,
      hb'.sheet?_eq_some_iff.mpr ⟨ht', hsame.name_eq.symm.trans hname⟩, hsame⟩

/-- Under a name and key both have the same row. -/
theorem row?_eq (hb : b.Indexed) (hb' : b'.Indexed) (sheet key : String) :
    b.row? sheet key = b'.row? sheet key := by
  rw [row?, row?]
  obtain ⟨hnone, hnone'⟩ | ⟨t, t', ht, ht', hsame⟩ := h.sheet?_cases hb hb' sheet
  · rw [hnone, hnone']
  · rw [ht, ht']
    exact hsame.row?_eq (hb.tables t (hb.sheet?_eq_some_iff.mp ht).1)
      (hb'.tables t' (hb'.sheet?_eq_some_iff.mp ht').1)

/-- Both have rows for the same keys of a record type. -/
theorem hasKey_iff : b.HasKey target key ↔ b'.HasKey target key := by
  constructor
  · rintro ⟨t, ht, hname, hkey⟩
    obtain ⟨t', ht', hsame⟩ := h.exists_of_mem_left ht
    exact ⟨t', ht', hsame.recordName_eq ▸ hname, hsame.keys_perm.mem_iff.mp hkey⟩
  · rintro ⟨t', ht', hname, hkey⟩
    obtain ⟨t, ht, hsame⟩ := h.exists_of_mem_right ht'
    exact ⟨t, ht, hsame.recordName_eq.trans hname, hsame.keys_perm.mem_iff.mpr hkey⟩

/-- Their linkers find the same rows. -/
theorem findsAlike (hb : b.Indexed) (hb' : b'.Indexed) (assets : AssetResolver) :
    (b.linker assets).FindsAlike (b'.linker assets) where
  row target key := by
    rw [Bool.eq_iff_iff]
    exact (RowIndex.isSome_lookup? hb).trans (h.hasKey_iff.trans (RowIndex.isSome_lookup? hb').symm)
  asset_eq := rfl

/-- What is not found in a sheet is the same, up to order. -/
theorem errors_perm (hb : b.Indexed) (hb' : b'.Indexed) (assets : AssetResolver)
    (sheet : String) : Option.Rel List.Perm
      ((b.sheet? sheet).map fun t => (t.table.mapReferences (b.linker assets)).2)
      ((b'.sheet? sheet).map fun t => (t.table.mapReferences (b'.linker assets)).2) := by
  obtain ⟨hnone, hnone'⟩ | ⟨t, t', ht, ht', hsame⟩ := h.sheet?_cases hb hb' sheet
  · rw [hnone, hnone']
    exact .none
  · rw [ht, ht']
    exact .some (hsame.errors_perm (h.findsAlike hb hb' assets))

end Reordered

end Container

/-! ### Rows at other places -/

/-- Two references, each of a container, are the same: both are to one key and unresolved, or both
are resolved to the row of one sheet and key. -/
structure TargetRef.SameRow (b b' : Container c) (r r' : TargetRef) : Prop where
  target_eq : r.target = r'.target
  key_eq : r.ref.key = r'.ref.key
  resolved : Option.Rel (fun k k' => ∃ sheet key, b.Locates k sheet key ∧
    b'.Locates k' sheet key) r.ref.resolved r'.ref.resolved

/-- Two rows, each of a container, are the same but for the places of the rows that they refer to:
the references of the second stand in the places of those of the first and are the same. -/
def AnyRow.Alike (b b' : Container c) (x y : AnyRow c) : Prop :=
  ∃ f : RefMap, y = ⟨x.id, x.members.mapInPlace f x.row⟩ ∧
    x.members.EveryRef (fun r => r.SameRow b b' (f.targetRef r)) (fun a => f.asset a = a) x.row

namespace Container

variable {b b' : Container c} {assets : AssetResolver} {target key : String} {k k' : RowKey}

/-- No reference in the rows of a container is resolved. -/
def Unresolved (b : Container c) : Prop :=
  ∀ t ∈ b.tables.toList, ∀ row ∈ t.table.rows.toList,
    (c.type t.id).record.members.Unresolved row

/-- What is found is in the container after linking, under the name of a sheet of the type. -/
theorem Indexed.addresses_of_lookup? (hb : b.Indexed)
    (hk : (b.linker assets).row target key = some k) :
    ∃ t ∈ b.tables.toList, t.recordName = target ∧ key ∈ t.keys ∧
      (b.linked assets).Locates k t.name key := by
  obtain ⟨⟨t, ht, hname, hkey⟩, -⟩ := RowIndex.firstRow_of_lookup? hb hk
  have hmem : t ∈ b.tables.toList := by
    rw [← Array.getElem?_toList] at ht
    exact List.mem_of_getElem? ht
  refine ⟨t, hmem, hname, List.mem_of_getElem? hkey, t.linked (b.linker assets), ?_, rfl, ?_⟩
  · rw [getElem?_tables_linked, ht, Option.map_some]
  · -- linking a table leaves its index
    exact (hb.tables t hmem).position?_eq_some_iff.mpr hkey

/-- References that lead where a linker finds the row lead to the same row at the places of the
other linker. -/
theorem Reordered.sameRow (h : b.Reordered b') (hb : b.Indexed) (hb' : b'.Indexed)
    (happart : b.KeysApart) {r : TargetRef} (hr : (b.linker assets).Resolves r) :
    r.SameRow (b.linked assets) (b'.linked assets) ((b'.linker assets).moved.targetRef r) := by
  have hl := h.findsAlike hb hb' assets
  obtain ⟨target, key, resolved⟩ := r
  refine ⟨rfl, rfl, ?_⟩
  cases resolved with
  | none => exact .none
  | some k =>
    have hk : (b.linker assets).row target key = some k := by
      rcases hr with hr | hr
      · cases hr
      · exact hr.symm
    have hfound := hl.row target key
    rw [hk] at hfound
    obtain ⟨k', hk'⟩ := Option.isSome_iff_exists.mp hfound.symm
    obtain ⟨t, ht, hname, hkey, haddress⟩ := hb.addresses_of_lookup? hk
    obtain ⟨t', ht', hname', hkey', haddress'⟩ := hb'.addresses_of_lookup? hk'
    -- the sheets in which the two linkers find the row have one name, as one sheet has the key
    obtain ⟨u, hu, hsame⟩ := h.exists_of_mem_right ht'
    have hsheet : t.name = t'.name := by
      rw [← hsame.name_eq]
      exact happart t ht u hu (hname.trans (hsame.recordName_eq.trans hname').symm) key hkey
        (hsame.keys_perm.mem_iff.mpr hkey')
    have hmoved : ((b'.linker assets).moved.row target ⟨key, some k⟩).resolved = some k' := hk'
    rw [RefMap.targetRef, hmoved]
    exact .some ⟨t.name, key, haddress, hsheet ▸ haddress'⟩

/-- The rows that are linked in one container and in the other are the same. -/
theorem Reordered.alike_linked (h : b.Reordered b') (hb : b.Indexed) (hb' : b'.Indexed)
    (happart : b.KeysApart) (hrows : b.Unresolved) (assets : AssetResolver) (sheet key : String) :
    Option.Rel (AnyRow.Alike (b.linked assets) (b'.linked assets))
      ((b.linked assets).row? sheet key) ((b'.linked assets).row? sheet key) := by
  rw [row?_linked, row?_linked, ← h.row?_eq hb hb' sheet key]
  cases hrow : b.row? sheet key with
  | none => exact .none
  | some x =>
    -- the row is in the container, so nothing in it is resolved before linking
    have hx : x.members.Unresolved x.row := by
      obtain ⟨t, ht, hkey⟩ := Option.bind_eq_some_iff.mp hrow
      obtain ⟨row, hbyKey, rfl⟩ := Option.map_eq_some_iff.mp hkey
      have hmem := (hb.sheet?_eq_some_iff.mp ht).1
      exact hrows t hmem row ((hb.tables t hmem).byKey?_eq_some_iff.mp hbyKey).1
    refine .some ⟨(b'.linker assets).moved, ?_, ?_⟩
    · exact congrArg (AnyRow.mk x.id)
        (Members.relinked_eq_mapInPlace (h.findsAlike hb hb' assets) _ _ hx)
    · exact Members.everyRef_imp (fun _ hr => h.sameRow hb hb' happart hr) (fun _ _ => rfl)
        (Members.everyRef_resolves (b.linker assets) _ hx)

end Container

end TypedSheets
