import Std.Data.HashMap.Lemmas
import TypedSheets.DataStore
import TypedSheets.Proofs.Link.Relinked

/-!
# The keys of tables

No two rows of a table have one key, and the index is that of the keys: the table without rows is
such, and adding a row, reading raw rows and linking keep it.

## Main definitions

* `Table.Indexed` — the keys are distinct and the index gives their positions

## Main results

* `contains_positionsFrom`, `getElem?_positionsFrom_iff` — the positions of names
* `Table.Indexed.push_eq_ok_iff` — a row is added exactly if its key is new
* `Table.acceptFrom_induction` — what adding rows keeps, reading raw rows keeps
* `Table.rows_ingest` — raw rows that all convert, with keys of their own, all become rows
* `Table.rows_mapReferences`, `Table.Indexed.mapReferences_of_keys` — tables with their references
  linked
-/

namespace TypedSheets

open DataStore (positionsFrom)

/-! ### The positions of names -/

theorem positionsFrom_append (position : Nat) (found : Std.HashMap String Nat)
    (xs ys : List String) :
    positionsFrom position found (xs ++ ys) =
      positionsFrom (position + xs.length) (positionsFrom position found xs) ys := by
  induction xs generalizing position found with
  | nil => rfl
  | cons x rest ih =>
    rw [List.cons_append, positionsFrom, ih, positionsFrom, List.length_cons]
    congr 1
    omega

/-- The names that have a position are those that were given one. -/
theorem contains_positionsFrom {position : Nat} {found : Std.HashMap String Nat}
    {names : List String} {name : String} :
    (positionsFrom position found names).contains name ↔ name ∈ names ∨ found.contains name := by
  induction names generalizing position found with
  | nil => simp [positionsFrom]
  | cons x rest ih =>
    rw [positionsFrom, ih, Std.HashMap.contains_insert, Bool.or_eq_true, beq_iff_eq, List.mem_cons]
    constructor
    · rintro (h | h | h)
      · exact Or.inl (Or.inr h)
      · exact Or.inl (Or.inl h.symm)
      · exact Or.inr h
    · rintro ((h | h) | h)
      · exact Or.inr (Or.inl h.symm)
      · exact Or.inl h
      · exact Or.inr (Or.inr h)

theorem getElem?_positionsFrom_of_notMem {position : Nat} {found : Std.HashMap String Nat}
    {names : List String} {name : String} (h : name ∉ names) :
    (positionsFrom position found names)[name]? = found[name]? := by
  induction names generalizing position found with
  | nil => rfl
  | cons x rest ih =>
    rw [List.mem_cons, not_or] at h
    obtain ⟨hfirst, hrest⟩ := h
    rw [positionsFrom, ih hrest, Std.HashMap.getElem?_insert,
      if_neg (by simpa using Ne.symm hfirst)]

theorem getElem?_positionsFrom {position : Nat} {found : Std.HashMap String Nat}
    {names : List String} {name : String} {i : Nat} (hnodup : names.Nodup)
    (hi : names[i]? = some name) :
    (positionsFrom position found names)[name]? = some (position + i) := by
  induction names generalizing position found i with
  | nil => cases hi
  | cons x rest ih =>
    obtain ⟨hfirst, hrest⟩ := List.nodup_cons.mp hnodup
    rw [positionsFrom]
    cases i with
    | zero =>
      obtain rfl := Option.some.inj hi
      rw [getElem?_positionsFrom_of_notMem hfirst, Std.HashMap.getElem?_insert_self, Nat.add_zero]
    | succ i =>
      rw [ih hrest hi]
      congr 1
      omega

/-- Distinct names have the positions at which they stand. -/
theorem getElem?_positionsFrom_iff {names : List String} {name : String} {i : Nat}
    (hnodup : names.Nodup) :
    (positionsFrom 0 ∅ names)[name]? = some i ↔ names[i]? = some name := by
  constructor
  · intro h
    have hmem : name ∈ names := by
      have hcontains : (positionsFrom 0 ∅ names).contains name := by
        rw [Std.HashMap.contains_eq_isSome_getElem?, h, Option.isSome_some]
      simpa using contains_positionsFrom.mp hcontains
    obtain ⟨j, hj⟩ := List.mem_iff_getElem?.mp hmem
    have hsame := (getElem?_positionsFrom hnodup hj).symm.trans h
    rw [Nat.zero_add] at hsame
    exact Option.some.inj hsame ▸ hj
  · intro h
    rw [getElem?_positionsFrom hnodup h, Nat.zero_add]

/-- The row that a raw row converts to, if it does and its key may be kept. -/
def TableType.convert? (t : TableType) (naming : Naming) (raw : RawRow) : Option t.Row :=
  (t.record.read naming raw).toOption.filter fun row => isValidKey (t.key row)

theorem TableType.convert?_eq_some_iff {t : TableType} {naming : Naming} {raw : RawRow}
    {row : t.Row} : t.convert? naming raw = some row ↔
      t.record.read naming raw = .ok row ∧ isValidKey (t.key row) = true := by
  rw [convert?, Option.filter_eq_some_iff]
  cases t.record.read naming raw <;> simp [Except.toOption]

namespace Table

variable {t : TableType} {table next : Table t}

/-! ### Adding rows -/

/-- The keys of a table are distinct, and its index gives their positions. -/
structure Indexed (table : Table t) : Prop where
  nodup : table.keys.Nodup
  index_eq : table.index = positionsFrom 0 ∅ table.keys

theorem indexed_empty (t : TableType) (name : String) : (empty t name).Indexed :=
  ⟨List.nodup_nil, rfl⟩

theorem length_keys (table : Table t) : table.keys.length = table.size := by
  rw [keys, List.length_map, Array.length_toList, size]

theorem Indexed.contains_index (h : table.Indexed) (key : String) :
    table.index.contains key ↔ key ∈ table.keys := by
  rw [h.index_eq, contains_positionsFrom]
  simp

/-- A key has the position at which it stands. -/
theorem Indexed.position?_eq_some_iff (h : table.Indexed) {key : String} {i : Nat} :
    table.position? key = some i ↔ table.keys[i]? = some key := by
  rw [position?, h.index_eq, getElem?_positionsFrom_iff h.nodup]

/-- A row is added exactly if its key is new. -/
theorem Indexed.push_eq_ok_iff (h : table.Indexed) {row : t.Row} :
    table.push row = .ok next ↔ t.key row ∉ table.keys ∧
      next = ⟨table.name, table.rows.push row, positionsFrom 0 ∅ (table.keys ++ [t.key row])⟩ := by
  have hindex : table.index.insert (t.key row) table.rows.size =
      positionsFrom 0 ∅ (table.keys ++ [t.key row]) := by
    rw [positionsFrom_append, ← h.index_eq, length_keys, Nat.zero_add]
    rfl
  rw [push, ← h.contains_index, ← hindex]
  cases hc : table.index.contains (t.key row) with
  | true => simp
  | false => simpa using eq_comm

theorem name_push {row : t.Row} (h : table.push row = .ok next) : next.name = table.name := by
  simp only [push] at h
  split at h <;> cases h
  rfl

/-- Adding a row keeps the keys distinct. -/
theorem Indexed.push (h : table.Indexed) {row : t.Row} (hpush : table.push row = .ok next) :
    next.Indexed := by
  have hkeys := keys_push hpush
  obtain ⟨hnew, rfl⟩ := h.push_eq_ok_iff.mp hpush
  refine ⟨?_, ?_⟩
  · rw [hkeys]
    exact List.nodup_append.mpr ⟨h.nodup, List.pairwise_singleton _ _, by
      rintro a ha b hb rfl
      exact hnew (List.mem_singleton.mp hb ▸ ha)⟩
  · rw [hkeys]

/-! ### Raw rows -/

variable {naming : Naming}

theorem accept_eq_ok {position : Nat} {raw : RawRow}
    (h : table.accept naming position raw = .ok next) :
    ∃ row, t.record.read naming raw = .ok row ∧ isValidKey (t.key row) = true ∧
      table.push row = .ok next := by
  rw [accept] at h
  split at h
  · cases h
  · next row hread =>
    split at h
    · cases h
    · next hvalid =>
      exact ⟨row, hread, by simpa using hvalid, mapError_eq_ok_iff.mp h⟩

/-- What adding a row that was read keeps, reading raw rows keeps. -/
theorem acceptFrom_induction {P : Table t → Prop} {raws : List RawRow}
    (hpush : ∀ raw ∈ raws, ∀ row, t.record.read naming raw = .ok row →
      isValidKey (t.key row) = true → ∀ table next : Table t, table.push row = .ok next →
        P table → P next) (position : Nat) (h : P table) :
    P (table.acceptFrom naming position raws).1 := by
  induction raws generalizing table position with
  | nil => exact h
  | cons raw rest ih =>
    have hrest := fun r hr => hpush r (List.mem_cons_of_mem raw hr)
    rw [acceptFrom]
    split
    · next next haccept =>
      obtain ⟨row, hread, hvalid, hnext⟩ := accept_eq_ok haccept
      exact ih hrest _ (hpush raw List.mem_cons_self row hread hvalid table next hnext h)
    -- a raw row that is not accepted leaves the table as it is
    · exact ih hrest _ h

/-- Raw rows give no more rows than they are. -/
theorem size_acceptFrom_le (table : Table t) (position : Nat) (raws : List RawRow) :
    (table.acceptFrom naming position raws).1.size ≤ table.size + raws.length := by
  induction raws generalizing table position with
  | nil => exact Nat.le_refl _
  | cons raw rest ih =>
    rw [acceptFrom, List.length_cons]
    split
    · next next haccept =>
      obtain ⟨row, -, -, hpush⟩ := accept_eq_ok haccept
      have hsize : next.size = table.size + 1 := by
        rw [size, rows_push hpush, Array.size_push, size]
      have hrest := ih next (position + 1)
      omega
    · have hrest := ih table (position + 1)
      dsimp only
      omega

/-- The table of raw rows has distinct keys. -/
theorem indexed_ingest (t : TableType) (name : String) (naming : Naming) (raws : List RawRow) :
    (ingest t name naming raws).1.Indexed :=
  acceptFrom_induction (fun _ _ _ _ _ _ _ hpush h => h.push hpush) 0 (indexed_empty t name)

theorem name_ingest (t : TableType) (name : String) (naming : Naming) (raws : List RawRow) :
    (ingest t name naming raws).1.name = name :=
  acceptFrom_induction (P := fun table => table.name = name)
    (fun _ _ _ _ _ _ _ hpush h => (name_push hpush).trans h) 0 rfl

/-- Every row of the table of raw rows was read from one of them, and its key may be kept. -/
theorem exists_of_mem_ingest {name : String} {raws : List RawRow} {row : t.Row}
    (h : row ∈ (ingest t name naming raws).1.rows.toList) :
    isValidKey (t.key row) = true ∧ ∃ raw ∈ raws, t.record.read naming raw = .ok row := by
  suffices hall : ∀ row ∈ (ingest t name naming raws).1.rows.toList,
      isValidKey (t.key row) = true ∧ ∃ raw ∈ raws, t.record.read naming raw = .ok row from
    hall row h
  refine acceptFrom_induction (P := fun table => ∀ row ∈ table.rows.toList,
    isValidKey (t.key row) = true ∧ ∃ raw ∈ raws, t.record.read naming raw = .ok row) ?_ 0 ?_
  · intro raw hraw row hread hvalid table next hpush h row' hrow'
    rw [rows_push hpush, Array.toList_push, List.mem_append, List.mem_singleton] at hrow'
    rcases hrow' with hrow' | rfl
    · exact h row' hrow'
    · exact ⟨hvalid, raw, hraw, hread⟩
  · intro row hrow
    exact absurd hrow List.not_mem_nil

/-- A raw row that does not convert is left out. -/
theorem exists_accept_eq_error (table : Table t) (position : Nat) {raw : RawRow}
    (h : t.convert? naming raw = none) :
    ∃ issue, table.accept naming position raw = .error issue := by
  rw [accept]
  cases hread : t.record.read naming raw with
  | error e => exact ⟨_, rfl⟩
  | ok row =>
    have hinvalid : isValidKey (t.key row) = false := by
      by_contra hvalid
      rw [TableType.convert?_eq_some_iff.mpr ⟨hread, Bool.of_not_eq_false hvalid⟩] at h
      cases h
    simp [hinvalid]

/-- A raw row that converts to a row with a new key is added. -/
theorem Indexed.accept_eq_ok (h : table.Indexed) (position : Nat) {raw : RawRow} {row : t.Row}
    (hconvert : t.convert? naming raw = some row) (hnew : t.key row ∉ table.keys) :
    ∃ next, table.accept naming position raw = .ok next ∧ table.push row = .ok next := by
  obtain ⟨hread, hvalid⟩ := TableType.convert?_eq_some_iff.mp hconvert
  refine ⟨_, ?_, h.push_eq_ok_iff.mpr ⟨hnew, rfl⟩⟩
  rw [accept, hread]
  simp only [hvalid, Bool.not_true, Bool.false_eq_true, if_false]
  exact mapError_eq_ok_iff.mpr (h.push_eq_ok_iff.mpr ⟨hnew, rfl⟩)

theorem Indexed.rows_acceptFrom (h : table.Indexed) {position : Nat} {raws : List RawRow}
    (hnodup : (table.keys ++ (raws.filterMap (t.convert? naming)).map t.key).Nodup) :
    (table.acceptFrom naming position raws).1.rows.toList =
      table.rows.toList ++ raws.filterMap (t.convert? naming) := by
  induction raws generalizing table position with
  | nil => exact (List.append_nil _).symm
  | cons raw rest ih =>
    rw [acceptFrom]
    cases hconvert : t.convert? naming raw with
    | none =>
      rw [List.filterMap_cons_none hconvert] at hnodup ⊢
      obtain ⟨issue, hissue⟩ := exists_accept_eq_error table position hconvert
      rw [hissue]
      exact ih h hnodup
    | some row =>
      rw [List.filterMap_cons_some hconvert] at hnodup ⊢
      rw [List.map_cons] at hnodup
      -- the key is new to the table as no row before has it
      have hnew : t.key row ∉ table.keys := fun hmem =>
        (List.nodup_cons.mp (List.perm_middle.nodup_iff.mp hnodup)).1 (List.mem_append_left _ hmem)
      obtain ⟨next, haccept, hpush⟩ := h.accept_eq_ok position hconvert hnew
      rw [haccept]
      simp only
      rw [ih (h.push hpush) (by rwa [keys_push hpush, List.append_assoc]), rows_push hpush,
        Array.toList_push, List.append_assoc]
      rfl

/-- Raw rows of which no two convert to rows with one key make up a table of all that convert. -/
theorem rows_ingest_eq_filterMap {name : String} {raws : List RawRow}
    (hnodup : ((raws.filterMap (t.convert? naming)).map t.key).Nodup) :
    (ingest t name naming raws).1.rows.toList = raws.filterMap (t.convert? naming) :=
  (indexed_empty t name).rows_acceptFrom hnodup

/-- Raw rows that all convert, to rows with keys of their own, make up a table. -/
theorem rows_ingest {name : String} {raws : List RawRow} {rows : List t.Row}
    (hrows : List.Forall₂ (fun raw row => t.record.read naming raw = .ok row ∧
      isValidKey (t.key row) = true) raws rows)
    (hnodup : (rows.map t.key).Nodup) : (ingest t name naming raws).1.rows.toList = rows := by
  have hconverted : raws.filterMap (t.convert? naming) = rows := by
    clear hnodup
    induction hrows with
    | nil => rfl
    | cons hrow _ ih =>
      rw [List.filterMap_cons_some (TableType.convert?_eq_some_iff.mpr hrow), ih]
  rw [rows_ingest_eq_filterMap (by rwa [hconverted]), hconverted]

/-! ### Linking -/

variable (l : Linker)

/-- The rows of a linked table are the linked rows. -/
theorem rows_mapReferences (table : Table t) :
    (mapReferences l table).1.rows.toList =
      table.rows.toList.map (t.record.members.relinked l t.record.decl) := by
  simp only [mapReferences, Array.toList_map, List.map_map]
  exact List.map_congr_left fun row _ => congrArg Prod.fst (linkRow_eq l table.name row)

theorem size_mapReferences (table : Table t) : (mapReferences l table).1.size = table.size := by
  simp [mapReferences, size]

/-- Linking leaves the keys of a table if it leaves those of its rows. -/
theorem keys_mapReferences_of_key
    (hkey : ∀ row, t.key (t.record.members.relinked l t.record.decl row) = t.key row)
    (table : Table t) : (mapReferences l table).1.keys = table.keys := by
  rw [keys, rows_mapReferences, List.map_map, keys]
  exact List.map_congr_left fun row _ => hkey row

/-- The index stays, so the keys have to. -/
theorem Indexed.mapReferences_of_keys (h : table.Indexed)
    (hkeys : (Table.mapReferences l table).1.keys = table.keys) :
    (Table.mapReferences l table).1.Indexed :=
  ⟨hkeys ▸ h.nodup, h.index_eq.trans (congrArg (positionsFrom 0 ∅) hkeys.symm)⟩

/-- Linking leaves keys that do not depend on what references are resolved to. -/
theorem keys_mapReferences (ht : t.ResolutionBlind) (table : Table t) :
    (mapReferences l table).1.keys = table.keys :=
  keys_mapReferences_of_key l (ht.key_relinked l) table

theorem Indexed.mapReferences (ht : t.ResolutionBlind) (h : table.Indexed) :
    (mapReferences l table).1.Indexed :=
  h.mapReferences_of_keys l (keys_mapReferences l ht table)

end Table

end TypedSheets
