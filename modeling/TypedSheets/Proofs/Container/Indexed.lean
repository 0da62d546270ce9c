import TypedSheets.Link.RowIndex
import TypedSheets.Proofs.RowKey
import TypedSheets.Proofs.Table.Keys

/-!
# The sheets of containers

No two sheets of a container have one name, its index is that of the names, its tables are indexed
by their keys, and every row has a place that a row key can name. Adding a table keeps this.

The index of a container finds a row exactly if there is one, and then the one in the first sheet
of the record type that has it.

## Main definitions

* `Container.Indexed` — names and keys are distinct and indexed, and the rows have places
* `Container.HasKey` — some sheet of a record type has a key
* `Container.FirstRow` — the place of a key in the first sheet that has it

## Main results

* `Container.Indexed.sheet?_eq_some_iff` — which table is found by name
* `Container.Indexed.insert_eq_ok_iff` — when a table is added
* `Container.Indexed.insert` — adding a table keeps a container indexed
* `Container.Indexed.ext` — a container is known by its naming and its tables
* `RowIndex.isSome_lookup?` — when a row is found
* `RowIndex.firstRow_of_lookup?` — which row is found
-/

namespace TypedSheets

open DataStore (positionsFrom)

namespace Container

variable {c : Catalog} {b next : Container c}

/-- The names of the sheets and the keys of each table are distinct and indexed, and every row has a
place. -/
structure Indexed (b : Container c) : Prop where
  nodup : b.sheetNames.Nodup
  byName_eq : b.byName = positionsFrom 0 ∅ b.sheetNames
  tables : ∀ t ∈ b.tables.toList, t.table.Indexed
  sheets_le : b.size ≤ maxSheets
  rows_le : ∀ t ∈ b.tables.toList, t.size ≤ RowKey.maxRow.toNat + 1

theorem indexed_empty (c : Catalog) (naming : Naming) : (empty c naming).Indexed where
  nodup := List.nodup_nil
  byName_eq := rfl
  tables _ h := absurd h List.not_mem_nil
  sheets_le := Nat.zero_le _
  rows_le _ h := absurd h List.not_mem_nil

theorem length_sheetNames (b : Container c) : b.sheetNames.length = b.size := by
  rw [sheetNames, List.length_map, Array.length_toList, size]

theorem Indexed.contains_byName (h : b.Indexed) (name : String) :
    b.byName.contains name ↔ name ∈ b.sheetNames := by
  rw [h.byName_eq, contains_positionsFrom]
  simp

/-- The table of a name is the one among the tables that has it. -/
theorem Indexed.sheet?_eq_some_iff (h : b.Indexed) {name : String} {t : AnyTable c} :
    b.sheet? name = some t ↔ t ∈ b.tables.toList ∧ t.name = name := by
  have hposition : ∀ i, b.byName[name]? = some i ↔ b.sheetNames[i]? = some name := fun i => by
    rw [h.byName_eq, getElem?_positionsFrom_iff h.nodup]
  rw [sheet?, ordinal?, Option.bind_eq_some_iff]
  constructor
  · rintro ⟨i, hi, ht⟩
    rw [← Array.getElem?_toList] at ht
    rw [hposition, sheetNames, List.getElem?_map, ht, Option.map_some, Option.some_inj] at hi
    exact ⟨List.mem_of_getElem? ht, hi⟩
  · rintro ⟨ht, rfl⟩
    obtain ⟨i, hi⟩ := List.mem_iff_getElem?.mp ht
    refine ⟨i, (hposition i).mpr ?_, by rwa [← Array.getElem?_toList]⟩
    rw [sheetNames, List.getElem?_map, hi, Option.map_some]

/-- There is no table of a name exactly if no sheet has it. -/
theorem Indexed.sheet?_eq_none_iff (h : b.Indexed) {name : String} :
    b.sheet? name = none ↔ name ∉ b.sheetNames := by
  rw [Option.eq_none_iff_forall_ne_some, sheetNames, List.mem_map]
  constructor
  · rintro hnone ⟨t, ht, hname⟩
    exact hnone t (h.sheet?_eq_some_iff.mpr ⟨ht, hname⟩)
  · exact fun hnone t ht => hnone ⟨t, h.sheet?_eq_some_iff.mp ht⟩

theorem refusal?_eq_none_iff {t : AnyTable c} :
    b.refusal? t = none ↔ ¬ b.byName.contains t.name = true ∧ b.size < maxSheets ∧
      t.size ≤ RowKey.maxRow.toNat + 1 := by
  rw [refusal?]
  generalize RowKey.maxRow.toNat + 1 = limit
  split
  · next hname => simp [hname]
  · next hname =>
    split
    · next hsheets => simp [Nat.not_lt.mpr hsheets]
    · next hsheets =>
      split
      · next hrows => simp [Nat.not_le.mpr hrows]
      · next hrows => exact ⟨fun _ => ⟨hname, by omega, by omega⟩, fun _ => rfl⟩

/-- A table is added if its name is new and its rows get places. -/
theorem Indexed.insert_eq_ok_iff (h : b.Indexed) {t : AnyTable c} :
    b.insert t = .ok next ↔ (t.name ∉ b.sheetNames ∧ b.size < maxSheets ∧
      t.size ≤ RowKey.maxRow.toNat + 1) ∧ next = b.push t := by
  rw [insert, ← h.contains_byName, ← refusal?_eq_none_iff]
  cases b.refusal? t with
  | none => simp [eq_comm]
  | some e => simp

theorem tables_push (b : Container c) (t : AnyTable c) :
    (b.push t).tables.toList = b.tables.toList ++ [t] := Array.toList_push

/-- A container that is indexed is known by its naming and its tables. -/
theorem Indexed.ext (h : b.Indexed) (h' : next.Indexed) (hnaming : b.naming = next.naming)
    (htables : b.tables.toList = next.tables.toList) : b = next := by
  have hindex : b.byName = next.byName := by
    rw [h.byName_eq, h'.byName_eq, sheetNames, sheetNames, htables]
  obtain ⟨naming, tables, byName⟩ := b
  obtain ⟨naming', tables', byName'⟩ := next
  obtain rfl : naming = naming' := hnaming
  obtain rfl : tables = tables' := Array.toList_inj.mp htables
  obtain rfl : byName = byName' := hindex
  rfl

/-- Adding a table that is indexed keeps the container indexed. -/
theorem Indexed.insert (h : b.Indexed) {t : AnyTable c} (ht : t.table.Indexed)
    (hinsert : b.insert t = .ok next) : next.Indexed := by
  obtain ⟨⟨hname, hsheets, hrows⟩, rfl⟩ := h.insert_eq_ok_iff.mp hinsert
  refine ⟨?_, ?_, ?_, ?_, ?_⟩
  · rw [sheetNames_push]
    exact List.nodup_append.mpr ⟨h.nodup, List.pairwise_singleton _ _, by
      rintro a ha b hb rfl
      exact hname (List.mem_singleton.mp hb ▸ ha)⟩
  · rw [sheetNames_push, positionsFrom_append, ← h.byName_eq, length_sheetNames, Nat.zero_add]
    rfl
  · rw [tables_push]
    exact List.forall_mem_append.mpr ⟨h.tables, by simpa using ht⟩
  · rw [size, push, Array.size_push]
    exact hsheets
  · rw [tables_push]
    exact List.forall_mem_append.mpr ⟨h.rows_le, by simpa using hrows⟩

end Container

end TypedSheets

/-! ## Looking up rows -/

namespace TypedSheets

namespace Container

variable {c : Catalog}

/-- Some sheet of a record type has a row with that key. -/
def HasKey (b : Container c) (target key : String) : Prop :=
  ∃ t ∈ b.tables.toList, t.recordName = target ∧ key ∈ t.keys

/-- The row of that place has the key, and its sheet is the first one of the record type that has a
row with the key. -/
structure FirstRow (b : Container c) (target key : String) (k : RowKey) : Prop where
  row : ∃ t, b.tables[k.sheet.toNat]? = some t ∧ t.recordName = target ∧
    t.keys[k.row.toNat]? = some key
  first : ∀ i < k.sheet.toNat, ∀ t, b.tables[i]? = some t → t.recordName = target → key ∉ t.keys

end Container

namespace RowIndex

/-! ### A sheet -/

section Sheet

variable {sheet row : Nat} {found : Std.HashMap String RowKey} {keys : List String}
  {key : String}

theorem getElem?_rowKeysFrom_of_notMem (h : key ∉ keys) :
    (rowKeysFrom sheet row found keys)[key]? = found[key]? := by
  induction keys generalizing row found with
  | nil => rfl
  | cons first rest ih =>
    rw [List.mem_cons, not_or] at h
    obtain ⟨hfirst, hrest⟩ := h
    rw [rowKeysFrom, ih hrest]
    split
    · rw [Std.HashMap.getElem?_insert, if_neg (by simpa using Ne.symm hfirst)]
    · rfl

/-- The row key of a key is that of its position. -/
theorem getElem?_rowKeysFrom {i : Nat} (hnodup : keys.Nodup) (hi : keys[i]? = some key)
    (hlimit : row + keys.length ≤ RowKey.rowLimit) :
    (rowKeysFrom sheet row found keys)[key]? =
      RowKey.of? (UInt16.ofNat sheet) (UInt64.ofNat (row + i)) := by
  induction keys generalizing row found i with
  | nil => cases hi
  | cons first rest ih =>
    obtain ⟨hfirst, hrest⟩ := List.nodup_cons.mp hnodup
    rw [List.length_cons] at hlimit
    rw [rowKeysFrom]
    cases i with
    | zero =>
      obtain rfl := Option.some.inj hi
      obtain ⟨k, hk, -⟩ := RowKey.exists_of? (UInt16.ofNat sheet) (by omega : row < _)
      -- the keys behind are others, and do not replace it
      rw [getElem?_rowKeysFrom_of_notMem hfirst, hk, Nat.add_zero, hk,
        Std.HashMap.getElem?_insert_self]
    | succ i =>
      rw [ih hrest hi (by omega)]
      congr 2
      omega

variable {c : Catalog}

/-- In the index of a table a key leads to its position. -/
theorem getElem?_sheetIndex {t : AnyTable c} {i : Nat} (ht : t.table.Indexed)
    (hlimit : t.size ≤ RowKey.rowLimit) (hi : t.keys[i]? = some key) :
    (sheetIndex sheet t).rows[key]? = RowKey.of? (UInt16.ofNat sheet) (UInt64.ofNat i) := by
  have hlength : 0 + t.keys.length ≤ RowKey.rowLimit := by
    rw [Nat.zero_add]
    exact t.table.length_keys.trans_le hlimit
  exact (getElem?_rowKeysFrom ht.nodup hi hlength).trans (by rw [Nat.zero_add])

theorem getElem?_sheetIndex_of_notMem {t : AnyTable c} (h : key ∉ t.keys) :
    (sheetIndex sheet t).rows[key]? = none := by
  exact (getElem?_rowKeysFrom_of_notMem h).trans Std.HashMap.getElem?_empty

/-- The index of a table gives the place of a key that is in it. -/
theorem exists_getElem?_sheetIndex {t : AnyTable c} (ht : t.table.Indexed)
    (hlimit : t.size ≤ RowKey.rowLimit) (hsheet : sheet < UInt16.size) (h : key ∈ t.keys) :
    ∃ k : RowKey, (sheetIndex sheet t).rows[key]? = some k ∧ k.sheet.toNat = sheet ∧
      t.keys[k.row.toNat]? = some key := by
  obtain ⟨i, hi⟩ := List.mem_iff_getElem?.mp h
  have hlength : t.keys.length = t.size := t.table.length_keys
  have hlt : i < RowKey.rowLimit := by
    have := (List.getElem?_eq_some_iff.mp hi).1
    omega
  obtain ⟨k, hk, hks, hkr⟩ := RowKey.exists_of? (UInt16.ofNat sheet) hlt
  refine ⟨k, by rw [getElem?_sheetIndex ht hlimit hi, hk], ?_, by rw [hkr, hi]⟩
  rw [hks, UInt16.toNat_ofNat']
  exact Nat.mod_eq_of_lt hsheet

/-- What is looked up in the index of one table. -/
theorem isSome_sheetIndex_iff {t : AnyTable c} {target : String} (ht : t.table.Indexed)
    (hlimit : t.size ≤ RowKey.rowLimit) (hsheet : sheet < UInt16.size) :
    (if (sheetIndex sheet t).target == target then
        (sheetIndex sheet t).rows[key]? else none).isSome ↔
      t.recordName = target ∧ key ∈ t.keys := by
  by_cases hname : t.recordName = target
  · rw [if_pos (by simpa [sheetIndex] using hname)]
    by_cases hmem : key ∈ t.keys
    · obtain ⟨k, hk, -⟩ := exists_getElem?_sheetIndex ht hlimit hsheet hmem
      simp [hk, hname, hmem]
    · simp [getElem?_sheetIndex_of_notMem hmem, hmem]
  · rw [if_neg (by simpa [sheetIndex] using hname)]
    simp [hname]

end Sheet

/-! ### All sheets -/

section Sheets

variable {c : Catalog} {target key : String} {sheet : Nat}

theorem lookup?_cons (s : SheetIndex) (rest : List SheetIndex) :
    (RowIndex.mk (s :: rest)).lookup? target key =
      ((if s.target == target then s.rows[key]? else none).or
        ((RowIndex.mk rest).lookup? target key)) := by
  rw [lookup?, List.findSome?_cons]
  split
  · next k hk => rw [hk, Option.some_or]
  · next hnone =>
    rw [hnone, Option.none_or]
    rfl

/-- The first of some tables that holds records of the type and has the key, and the position of
the key in it. -/
theorem exists_of_lookup?_sheetsFrom {ts : List (AnyTable c)} {k : RowKey}
    (hts : ∀ t ∈ ts, t.table.Indexed) (hrows : ∀ t ∈ ts, t.size ≤ RowKey.rowLimit)
    (hsheets : sheet + ts.length ≤ UInt16.size)
    (h : (RowIndex.mk (sheetsFrom sheet ts)).lookup? target key = some k) :
    ∃ i t, k.sheet.toNat = sheet + i ∧ ts[i]? = some t ∧ t.recordName = target ∧
      t.keys[k.row.toNat]? = some key ∧
      ∀ j < i, ∀ t, ts[j]? = some t → t.recordName = target → key ∉ t.keys := by
  induction ts generalizing sheet with
  | nil => cases h
  | cons t rest ih =>
    rw [List.length_cons] at hsheets
    have hlt : sheet < UInt16.size := by omega
    rw [sheetsFrom, lookup?_cons] at h
    by_cases hhas : t.recordName = target ∧ key ∈ t.keys
    · obtain ⟨hname, hmem⟩ := hhas
      obtain ⟨k', hk', hsheet, hrow⟩ := exists_getElem?_sheetIndex
        (hts t List.mem_cons_self) (hrows t List.mem_cons_self) hlt hmem
      rw [if_pos (by simpa [sheetIndex] using hname), hk', Option.some_or] at h
      obtain rfl := Option.some.inj h
      -- it is the very first one, so none before it has the key
      exact ⟨0, t, hsheet, rfl, hname, hrow, fun j hj => absurd hj (Nat.not_lt_zero j)⟩
    · have hnone := (isSome_sheetIndex_iff (hts t List.mem_cons_self)
        (hrows t List.mem_cons_self) hlt).not.mpr hhas
      rw [Option.not_isSome_iff_eq_none] at hnone
      rw [hnone, Option.none_or] at h
      obtain ⟨i, t', hsheet, hi, hname, hrow, hfirst⟩ := ih
        (fun t ht => hts t (List.mem_cons_of_mem _ ht))
        (fun t ht => hrows t (List.mem_cons_of_mem _ ht)) (by omega) h
      refine ⟨i + 1, t', by omega, hi, hname, hrow, ?_⟩
      rintro (- | j) hj t'' ht'' hname'' hmem
      · obtain rfl := Option.some.inj ht''
        exact hhas ⟨hname'', hmem⟩
      · exact hfirst j (Nat.lt_of_succ_lt_succ hj) t'' ht'' hname'' hmem

theorem isSome_lookup?_sheetsFrom {ts : List (AnyTable c)} (hts : ∀ t ∈ ts, t.table.Indexed)
    (hrows : ∀ t ∈ ts, t.size ≤ RowKey.rowLimit) (hsheets : sheet + ts.length ≤ UInt16.size) :
    ((RowIndex.mk (sheetsFrom sheet ts)).lookup? target key).isSome ↔
      ∃ t ∈ ts, t.recordName = target ∧ key ∈ t.keys := by
  induction ts generalizing sheet with
  | nil => simp [sheetsFrom, lookup?]
  | cons t rest ih =>
    rw [List.length_cons] at hsheets
    have hlt : sheet < UInt16.size := by omega
    have hrest := @ih (sheet + 1) (fun t ht => hts t (List.mem_cons_of_mem _ ht))
      (fun t ht => hrows t (List.mem_cons_of_mem _ ht)) (by omega)
    rw [sheetsFrom, lookup?_cons, Option.isSome_or, Bool.or_eq_true,
      isSome_sheetIndex_iff (hts t List.mem_cons_self) (hrows t List.mem_cons_self) hlt, hrest,
      List.exists_mem_cons_iff]

variable {b : Container c}

theorem rows_le_rowLimit (h : b.Indexed) : ∀ t ∈ b.tables.toList, t.size ≤ RowKey.rowLimit := by
  intro t ht
  have := h.rows_le t ht
  rw [RowKey.toNat_maxRow] at this
  have hpos : 0 < RowKey.rowLimit := by decide
  omega

theorem sheets_le_size (h : b.Indexed) : 0 + b.tables.toList.length ≤ UInt16.size := by
  have := h.sheets_le
  rw [Nat.zero_add, Array.length_toList]
  exact this

/-- A row is found exactly if some sheet of the record type has it. -/
theorem isSome_lookup? (h : b.Indexed) :
    ((ofContainer b).lookup? target key).isSome ↔ b.HasKey target key :=
  isSome_lookup?_sheetsFrom h.tables (rows_le_rowLimit h) (sheets_le_size h)

/-- The row that is found is in the first sheet of the record type that has it. -/
theorem firstRow_of_lookup? (h : b.Indexed) {k : RowKey}
    (hk : (ofContainer b).lookup? target key = some k) : b.FirstRow target key k := by
  obtain ⟨i, t, hsheet, hi, hname, hrow, hfirst⟩ :=
    exists_of_lookup?_sheetsFrom h.tables (rows_le_rowLimit h) (sheets_le_size h) hk
  rw [Nat.zero_add] at hsheet
  refine ⟨⟨t, ?_, hname, hrow⟩, ?_⟩
  · rw [hsheet, ← Array.getElem?_toList, hi]
  · intro j hj t' ht'
    exact hfirst j (hsheet ▸ hj) t' (by rwa [Array.getElem?_toList])

end Sheets

end RowIndex

end TypedSheets
