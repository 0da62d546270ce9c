import Mathlib.Data.List.Induction
import TypedSheets.Game.Gear
import TypedSheets.Proofs.DataStore

/-!
# Replacing rows

A data table of a mutable record type is a map from keys to rows. Which keys it has, and in what
order, is fixed when it is made. A try to put a row under an id succeeds if the id has a row and the
new row has the same key, and then it replaces that row; other tries change nothing. Only the rows
are written then, never the index, and so the two have to agree after any tries.

## Main definitions

* `Replacement`, `DataTable.attempt`, `DataTable.attemptEach` — tries to replace rows
* `lastRow?` — the last row that was put under a key
* `DataTable.RowReplaced` — one table is another with the row of a key replaced
* `DataTable.ActsAsMap` — how a table looks up and replaces rows after tries

## Main results

* `DataTable.Indexed.trySet_of_mem` — when a row is replaced, and what becomes of the table
* `DataTable.HasRows.attempt`, `DataTable.HasRows.attemptEach` — the rows after tries
* `DataTable.ofRows_actsAsMap` — a table of rows with distinct keys acts as a map
-/

namespace TypedSheets

open DataStore (positionsFrom)

variable {t : TableType}

/-- A row that is to replace the one under an id. -/
structure Replacement (t : TableType) where
  id : t.id.El
  row : t.Row

/-- The last row among replacements that was put under a key. A row is never put under a key that it
does not have. -/
def lastRow? (us : List (Replacement t)) (key : String) : Option t.Row :=
  (us.reverse.find? fun u => t.id.key u.id = key ∧ t.key u.row = key).map Replacement.row

/-- One more replacement counts for the key of its id, if its row has that key. -/
theorem lastRow?_concat (us : List (Replacement t)) (u : Replacement t) (key : String) :
    lastRow? (us ++ [u]) key =
      if t.id.key u.id = key ∧ t.key u.row = key then some u.row else lastRow? us key := by
  rw [lastRow?, List.reverse_append, List.reverse_singleton, List.singleton_append]
  split
  · next h => rw [List.find?_cons_of_pos (by simpa using h)]; rfl
  · next h => rw [List.find?_cons_of_neg (by simpa using h)]; rfl

theorem key_of_lastRow? {us : List (Replacement t)} {key : String} {row : t.Row}
    (h : lastRow? us key = some row) : t.key row = key := by
  obtain ⟨u, hu, rfl⟩ := Option.map_eq_some_iff.mp h
  have hfound := List.find?_some hu
  rw [decide_eq_true_eq] at hfound
  exact hfound.2

/-- A row as replacements leave it. -/
def rowAfter (us : List (Replacement t)) (row : t.Row) : t.Row :=
  (lastRow? us (t.key row)).getD row

@[simp] theorem key_rowAfter (us : List (Replacement t)) (row : t.Row) :
    t.key (rowAfter us row) = t.key row := by
  rw [rowAfter]
  cases h : lastRow? us (t.key row) with
  | none => rfl
  | some new => exact key_of_lastRow? h

/-- A replacement concerns the row with the key of its id and no other. -/
theorem rowAfter_concat {us : List (Replacement t)} {u : Replacement t} {key : String}
    (hid : t.id.key u.id = key) (hrow : t.key u.row = key) (row : t.Row) :
    rowAfter (us ++ [u]) row = if t.key row = key then u.row else rowAfter us row := by
  rw [rowAfter, lastRow?_concat, hid, hrow]
  by_cases h : t.key row = key
  · rw [if_pos ⟨h.symm, h.symm⟩, if_pos h, Option.getD_some]
  · rw [if_neg fun hkey => h hkey.1.symm, if_neg h, rowAfter]

/-- A replacement whose row has another key than its id concerns no row. -/
theorem rowAfter_concat_of_ne {us : List (Replacement t)} {u : Replacement t}
    (h : t.key u.row ≠ t.id.key u.id) (row : t.Row) :
    rowAfter (us ++ [u]) row = rowAfter us row := by
  rw [rowAfter, lastRow?_concat, if_neg fun hkey => h (hkey.2.trans hkey.1.symm), rowAfter]

namespace DataTable

variable {table now next : DataTable t} {rows : List t.Row} {key : String}

/-- The table after a try to replace a row, which leaves it as it is if it fails. -/
def attempt (table : DataTable t) (u : Replacement t) : DataTable t :=
  match table.trySet u.id u.row with
  | .ok next => next
  | .error _ => table

/-- The table after tries to replace rows, one after the other. -/
def attemptEach (table : DataTable t) (us : List (Replacement t)) : DataTable t :=
  us.foldl attempt table

theorem attemptEach_concat (table : DataTable t) (us : List (Replacement t)) (u : Replacement t) :
    table.attemptEach (us ++ [u]) = (table.attemptEach us).attempt u := by
  rw [attemptEach, List.foldl_append, List.foldl_cons, List.foldl_nil, attemptEach]

/-- A table is another with one row replaced, namely that of a key. -/
structure RowReplaced (table next : DataTable t) (key : String) (row : t.Row) : Prop where
  name_eq : next.name = table.name
  index_eq : next.index = table.index
  getElem?_eq : ∀ position : Nat, next.rows[position]? =
    if table.keys[position]? = some key then some row else table.rows[position]?

/-- A table acts as a map from the keys of rows: it finds the row of a key as replacements left it
and nothing under any other key, and it lets a row be replaced exactly by one with the same key. -/
structure ActsAsMap (table : DataTable t) (rows : List t.Row) (us : List (Replacement t)) :
    Prop where
  keys_eq : table.keys = rows.map t.key
  byId_of_mem : ∀ row ∈ rows, ∀ id, t.id.key id = t.key row →
    table.byId id = ⟨some ((lastRow? us (t.key row)).getD row)⟩
  isValid_byId : ∀ id, (table.byId id).isValid = true ↔ t.id.key id ∈ rows.map t.key
  notFound : ∀ id row, t.id.key id ∉ rows.map t.key →
    table.trySet id row = .error (.notFound table.name (t.id.key id))
  idMismatch : ∀ id row, t.id.key id ∈ rows.map t.key → t.key row ≠ t.id.key id →
    table.trySet id row = .error (.idMismatch (t.id.key id) (t.key row))
  replaced : ∀ id row, t.id.key id ∈ rows.map t.key → t.key row = t.id.key id →
    ∃ next, table.trySet id row = .ok next ∧ table.RowReplaced next (t.id.key id) row

theorem length_keys (table : DataTable t) : table.keys.length = table.rows.size := by
  rw [keys, List.length_map, Array.length_toList]

/-! ### One try -/

namespace Indexed

variable (h : table.Indexed)

include h

theorem getElem?_index_eq_none (hkey : key ∉ table.keys) : table.index[key]? = none := by
  rw [h.index_eq, getElem?_positionsFrom_of_notMem hkey, Std.HashMap.getElem?_empty]

theorem trySet_of_notMem {id : t.id.El} (row : t.Row) (hid : t.id.key id ∉ table.keys) :
    table.trySet id row = .error (.notFound table.name (t.id.key id)) := by
  simp only [trySet, h.getElem?_index_eq_none hid]

theorem trySet_of_ne {id : t.id.El} {row : t.Row} (hid : t.id.key id ∈ table.keys)
    (hrow : t.key row ≠ t.id.key id) :
    table.trySet id row = .error (.idMismatch (t.id.key id) (t.key row)) := by
  obtain ⟨position, hposition⟩ := List.mem_iff_getElem?.mp hid
  have hindex : table.index[t.id.key id]? = some position := by
    rw [h.index_eq, getElem?_positionsFrom_iff h.nodup, hposition]
  simp only [trySet, hindex]
  rw [if_pos hrow]

/-- A row is replaced by one with the same key, and no other row changes. -/
theorem trySet_of_mem {id : t.id.El} {row : t.Row} (hid : t.id.key id ∈ table.keys)
    (hrow : t.key row = t.id.key id) :
    ∃ next, table.trySet id row = .ok next ∧ table.RowReplaced next (t.id.key id) row := by
  obtain ⟨position, hposition⟩ := List.mem_iff_getElem?.mp hid
  have hindex : table.index[t.id.key id]? = some position := by
    rw [h.index_eq, getElem?_positionsFrom_iff h.nodup, hposition]
  have hbound : position < table.rows.size :=
    table.length_keys ▸ (List.getElem?_eq_some_iff.mp hposition).1
  refine ⟨{ table with rows := table.rows.setIfInBounds position row }, ?_, rfl, rfl, fun i => ?_⟩
  · simp only [trySet, hindex]
    rw [if_neg (not_not.mpr hrow)]
  · -- the keys are distinct, so the key stands at this position only
    have hsame : table.keys[i]? = some (t.id.key id) ↔ position = i := by
      rw [← getElem?_positionsFrom_iff h.nodup, ← h.index_eq, hindex, Option.some.injEq]
    rw [Array.getElem?_setIfInBounds, if_congr hsame rfl rfl, if_pos hbound]

end Indexed

/-! ### Tries one after the other -/

/-- What tries leave of a table of rows. -/
structure HasRows (table now : DataTable t) (us : List (Replacement t)) : Prop where
  name_eq : now.name = table.name
  index_eq : now.index = table.index
  rows_eq : now.rows.toList = table.rows.toList.map (rowAfter us)

namespace HasRows

variable {us : List (Replacement t)}

theorem keys_eq (h : table.HasRows now us) : now.keys = table.keys := by
  rw [keys, h.rows_eq, List.map_map, keys]
  exact List.map_congr_left fun row _ => key_rowAfter us row

theorem indexed (h : table.HasRows now us) (htable : table.Indexed) : now.Indexed :=
  ⟨h.keys_eq ▸ htable.nodup, h.index_eq.trans (htable.index_eq.trans (by rw [h.keys_eq]))⟩

/-- A try that fails changes no row, and no row is as if it had succeeded. -/
theorem of_error (h : table.HasRows now us) (u : Replacement t)
    (hrow : ∀ row ∈ table.rows.toList, rowAfter (us ++ [u]) row = rowAfter us row) :
    table.HasRows now (us ++ [u]) :=
  ⟨h.name_eq, h.index_eq,
    h.rows_eq.trans (List.map_congr_left fun row hmem => (hrow row hmem).symm)⟩

/-- A try that succeeds changes the row of its key. -/
theorem of_rowReplaced (h : table.HasRows now us) {u : Replacement t}
    (hrow : t.key u.row = t.id.key u.id) (hnext : now.RowReplaced next (t.id.key u.id) u.row) :
    table.HasRows next (us ++ [u]) := by
  refine ⟨hnext.name_eq.trans h.name_eq, hnext.index_eq.trans h.index_eq,
    List.ext_getElem? fun position => ?_⟩
  rw [Array.getElem?_toList, hnext.getElem?_eq, h.keys_eq, keys, List.getElem?_map,
    List.getElem?_map, ← Array.getElem?_toList, h.rows_eq, List.getElem?_map]
  cases table.rows.toList[position]? with
  | none => rfl
  | some row =>
    rw [Option.map_some, Option.map_some, Option.map_some, rowAfter_concat rfl hrow,
      if_congr (Option.some_inj) rfl rfl]
    split <;> rfl

/-- What one more try leaves. -/
theorem attempt (h : table.HasRows now us) (htable : table.Indexed) (u : Replacement t) :
    table.HasRows (now.attempt u) (us ++ [u]) := by
  have hnow := h.indexed htable
  rw [DataTable.attempt]
  by_cases hid : t.id.key u.id ∈ now.keys
  · by_cases hrow : t.key u.row = t.id.key u.id
    · obtain ⟨next, hset, hnext⟩ := hnow.trySet_of_mem hid hrow
      rw [hset]
      exact h.of_rowReplaced hrow hnext
    · rw [hnow.trySet_of_ne hid hrow]
      exact h.of_error u fun row _ => rowAfter_concat_of_ne hrow row
  · rw [hnow.trySet_of_notMem u.row hid]
    refine h.of_error u fun row hmem => ?_
    -- no row of the table has the key that was not found
    by_cases hrow : t.key u.row = t.id.key u.id
    · rw [rowAfter_concat rfl hrow, if_neg]
      rintro hkey
      exact hid (h.keys_eq ▸ hkey ▸ List.mem_map_of_mem hmem)
    · exact rowAfter_concat_of_ne hrow row

/-- What any tries leave. -/
theorem attemptEach (htable : table.Indexed) (us : List (Replacement t)) :
    table.HasRows (table.attemptEach us) us := by
  induction us using List.reverseRecOn with
  | nil => exact ⟨rfl, rfl, (List.map_id _).symm⟩
  | append_singleton us u ih =>
    rw [attemptEach_concat]
    exact ih.attempt htable u

/-- A table acts as a map after any tries. -/
theorem actsAsMap (h : table.HasRows now us) (htable : table.Indexed) :
    now.ActsAsMap table.rows.toList us := by
  have hnow := h.indexed htable
  have hkeys : now.keys = table.rows.toList.map t.key := h.keys_eq
  -- the row at the position of a key is found under the key
  have hfound : ∀ row ∈ table.rows.toList, ∀ id, t.id.key id = t.key row →
      now.byId id = ⟨some (rowAfter us row)⟩ := by
    intro row hmem id hid
    obtain ⟨position, hposition⟩ := List.mem_iff_getElem?.mp hmem
    have hat : now.rows.toList[position]? = some (rowAfter us row) := by
      rw [h.rows_eq, List.getElem?_map, hposition, Option.map_some]
    have hkey : now.keys[position]? = some (t.key row) := by
      rw [hkeys, List.getElem?_map, hposition, Option.map_some]
    obtain ⟨found, -, hbyPosition, hbyKey⟩ := hnow.byKey_eq hkey
    rw [byId, hid, hbyKey, ← hbyPosition, byPosition, ← Array.getElem?_toList, hat]
  refine ⟨hkeys, hfound, fun id => ?_, ?_, ?_, ?_⟩
  · by_cases hid : t.id.key id ∈ table.rows.toList.map t.key
    · obtain ⟨row, hmem, hkey⟩ := List.mem_map.mp hid
      rw [hfound row hmem id hkey.symm]
      exact iff_of_true rfl hid
    · rw [byId, byKey, hnow.getElem?_index_eq_none (hkeys ▸ hid)]
      exact iff_of_false Bool.false_ne_true hid
  · exact fun id row hid => hnow.trySet_of_notMem row (hkeys ▸ hid)
  · exact fun id row hid hrow => hnow.trySet_of_ne (hkeys ▸ hid) hrow
  · exact fun id row hid hrow => hnow.trySet_of_mem (hkeys ▸ hid) hrow

end HasRows

/-! ### Tables of rows -/

/-- Rows with distinct keys make a data table that is indexed. -/
theorem exists_ofRows_eq_ok (name : String) {rows : Array t.Row}
    (hrows : (rows.toList.map t.key).Nodup) : ∃ table, ofRows t name rows = .ok table ∧
      table.name = name ∧ table.rows = rows ∧ table.Indexed := by
  refine ⟨⟨name, rows, positionsFrom 0 ∅ (rows.toList.map t.key)⟩, ?_, rfl, rfl, hrows, rfl⟩
  rw [ofRows, indexFrom_eq_ok hrows fun _ _ => Std.HashMap.not_mem_empty]

theorem byKey_cleared (table : DataTable t) (key : String) :
    table.cleared.byKey key = .invalid := by
  rw [byKey, cleared, Std.HashMap.getElem?_empty]

/-- A table of rows with distinct keys is writable exactly if its record type is mutable. It acts
then as a map with the keys of these rows, after any tries to replace rows; a try that fails leaves
it as it was, and no try changes its index. Once it is cleared, no id and no key has a row. -/
theorem ofRows_actsAsMap (t : TableType) (name : String) (rows : Array t.Row)
    (hrows : (rows.toList.map t.key).Nodup) : ∃ table, ofRows t name rows = .ok table ∧
      (t.record.schema.isMutable = true → table.writable? = .ok table ∧
        ∀ us, (table.attemptEach us).ActsAsMap rows.toList us ∧
          (table.attemptEach us).name = name ∧ (table.attemptEach us).index = table.index ∧
          ∀ u e, (table.attemptEach us).trySet u.id u.row = .error e →
            table.attemptEach (us ++ [u]) = table.attemptEach us) ∧
      (t.record.schema.isMutable = false →
        ∀ any : DataTable t, any.writable? = .error (.immutable any.name)) ∧
      ∀ us, (∀ id, (table.attemptEach us).cleared.byId id = .invalid) ∧
        ∀ key, (table.attemptEach us).cleared.byKey key = .invalid := by
  obtain ⟨table, hofRows, hname, rfl, htable⟩ := exists_ofRows_eq_ok name hrows
  refine ⟨table, hofRows, fun hmutable => ⟨if_pos hmutable, fun us => ?_⟩,
    fun himmutable any => if_neg (by rw [himmutable]; exact Bool.false_ne_true),
    fun us => ⟨fun id => byKey_cleared _ _, byKey_cleared _⟩⟩
  have hafter := HasRows.attemptEach htable us
  refine ⟨hafter.actsAsMap htable, hafter.name_eq.trans hname, hafter.index_eq, ?_⟩
  intro u e herror
  rw [attemptEach_concat, attempt, herror]

end DataTable

/-! ### Counters -/

namespace Game

/-- A counter. -/
def counterRow (id : IntKind.El .u32) (value : IntKind.El .i64) : counter.Row := (id, value, ())

/-- The id of the first counter. -/
def firstCounter : IntKind.El .u32 := ⟨11, by decide⟩

/-- The id of the second counter. -/
def secondCounter : IntKind.El .u32 := ⟨12, by decide⟩

/-- Two counters at zero. -/
def counterRows : Array counter.Row :=
  #[counterRow firstCounter ⟨0, by decide⟩, counterRow secondCounter ⟨0, by decide⟩]

/-- The first counter is put under its own id and then under that of the second. -/
def counterReplacements : List (Replacement counter) :=
  [⟨firstCounter, counterRow firstCounter ⟨10, by decide⟩⟩,
    ⟨secondCounter, counterRow firstCounter ⟨5, by decide⟩⟩]

end Game

open Game in
/-- The first of the two counters is set, and the second stays at zero. -/
theorem DataTable.ofRows_actsAsMap_counters :
    (counterRows.toList.map counter.key).Nodup ∧ counter.record.schema.isMutable = true ∧
      ∃ table, DataTable.ofRows counter "Counters" counterRows = .ok table ∧
        (table.attemptEach counterReplacements).byId firstCounter =
          ⟨some (counterRow firstCounter ⟨10, by decide⟩)⟩ ∧
        (table.attemptEach counterReplacements).byId secondCounter =
          ⟨some (counterRow secondCounter ⟨0, by decide⟩)⟩ := by
  have hkeys : counter.id.key secondCounter ≠ counter.id.key firstCounter := by decide +kernel
  have hnodup : (counterRows.toList.map counter.key).Nodup := by decide +kernel
  obtain ⟨table, hofRows, hmutable, -, -⟩ :=
    DataTable.ofRows_actsAsMap counter "Counters" counterRows hnodup
  have hmap := ((hmutable rfl).2 counterReplacements).1
  -- the other replacement has the row of another counter
  have hlast : ∀ key, lastRow? counterReplacements key =
      if counter.id.key firstCounter = key ∧ counter.id.key firstCounter = key then
        some (counterRow firstCounter ⟨10, by decide⟩) else none := fun key =>
    ((lastRow?_concat [_] _ key).trans (if_neg fun h => hkeys (h.1.trans h.2.symm))).trans
      (lastRow?_concat [] _ key)
  refine ⟨hnodup, rfl, table, hofRows, ?_, ?_⟩
  · rw [hmap.byId_of_mem _ List.mem_cons_self firstCounter rfl, hlast, if_pos ⟨rfl, rfl⟩]
    rfl
  · rw [hmap.byId_of_mem _ (List.mem_cons_of_mem _ List.mem_cons_self) secondCounter rfl, hlast,
      if_neg fun h => hkeys h.1.symm]
    rfl

end TypedSheets
