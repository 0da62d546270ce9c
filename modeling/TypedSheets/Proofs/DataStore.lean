import TypedSheets.Proofs.Container.Indexed

/-!
# Serving a container

A store that took over a container has its sheets at their positions, each with its keys in order.
Rows may be replaced afterwards, but only by rows with the same key. So a place in the container
leads to a row with the key that it was found for, however often rows were replaced since.

## Main definitions

* `DataTable.Indexed` — the keys of a data table are distinct and its index gives their positions
* `DataStore.Serves` — a store has the sheets of a container and their keys
* `RowUpdate`, `DataStore.update`, `DataStore.updateEach` — try to replace rows
* `DataStore.Follows` — a store follows a reference to a row with its key
* `DataStore.FollowsAlways` — it does so after any updates

## Main results

* `DataStore.serve_eq_ok` — a container whose keys are distinct is taken over
* `DataStore.Serves.trySet`, `DataStore.Serves.updateEach` — replacing rows keeps sheets and keys
* `DataStore.Serves.followsAlways` — a reference to the first row of its key is followed
-/

namespace TypedSheets

open DataStore (positionsFrom)

variable {c : Catalog}

/-- Setting an element to one with the same image leaves the images. -/
theorem map_set_of_eq {α β : Type} {f : α → β} {xs : List α} {i : Nat} {x y : α}
    (hi : xs[i]? = some x) (h : f y = f x) : (xs.set i y).map f = xs.map f := by
  refine List.ext_getElem? fun j => ?_
  rw [List.getElem?_map, List.getElem?_map, List.getElem?_set]
  split
  · next hij =>
    subst hij
    rw [if_pos (List.getElem?_eq_some_iff.mp hi).1, hi, Option.map_some, Option.map_some, h]
  · rfl

/-! ### Data tables -/

namespace DataTable

variable {t : TableType} {table next : DataTable t} {key : String} {position : Nat}

/-- The keys in row order. -/
def keys (table : DataTable t) : List String := table.rows.toList.map t.key

/-- The keys of a data table are distinct, and its index gives their positions. -/
structure Indexed (table : DataTable t) : Prop where
  nodup : table.keys.Nodup
  index_eq : table.index = positionsFrom 0 ∅ table.keys

/-- Rows with distinct keys that are not in the index yet are added to it. -/
theorem indexFrom_eq_ok {name : String} {index : Std.HashMap String Nat} {rows : List t.Row}
    (hnodup : (rows.map t.key).Nodup) (hnew : ∀ key ∈ rows.map t.key, key ∉ index) :
    indexFrom name index position rows = .ok (positionsFrom position index (rows.map t.key)) := by
  induction rows generalizing index position with
  | nil => rfl
  | cons row rest ih =>
    rw [List.map_cons] at hnodup hnew ⊢
    obtain ⟨hfirst, hrest⟩ := List.nodup_cons.mp hnodup
    obtain ⟨hrow, hothers⟩ := List.forall_mem_cons.mp hnew
    rw [indexFrom, if_neg (by simpa using hrow), ih hrest fun key hkey => ?_, positionsFrom]
    -- a key that follows is not the one that was added last
    rw [Std.HashMap.mem_insert, not_or]
    refine ⟨?_, hothers key hkey⟩
    rw [beq_iff_eq]
    rintro rfl
    exact hfirst hkey

/-- The rows of a table with distinct keys make a data table. -/
theorem ofRows_eq_ok {source : Table t} (h : source.Indexed) :
    ofRows t source.name source.rows = .ok ⟨source.name, source.rows, source.index⟩ := by
  rw [ofRows, indexFrom_eq_ok h.nodup fun _ _ => Std.HashMap.not_mem_empty, h.index_eq]
  rfl

namespace Indexed

variable (h : table.Indexed)

include h

/-- A key of the table leads to the row at its position. -/
theorem byKey_eq (hkey : table.keys[position]? = some key) :
    ∃ row, t.key row = key ∧ table.byPosition position = ⟨some row⟩ ∧
      table.byKey key = ⟨some row⟩ := by
  have hrow := hkey
  rw [keys, List.getElem?_map, Option.map_eq_some_iff] at hrow
  obtain ⟨row, hrow, hrowKey⟩ := hrow
  have hposition : table.byPosition position = ⟨some row⟩ := by
    rw [byPosition, ← Array.getElem?_toList, hrow]
  have hindex : table.index[key]? = some position := by
    rw [h.index_eq, getElem?_positionsFrom_iff h.nodup, hkey]
  exact ⟨row, hrowKey, hposition, by rw [byKey, hindex]; exact hposition⟩

/-- A row is replaced by one with the same key only, so the keys stay. -/
theorem trySet_eq_ok {id : t.id.El} {row : t.Row} (htry : table.trySet id row = .ok next) :
    next.keys = table.keys ∧ next.Indexed := by
  simp only [trySet] at htry
  split at htry
  · cases htry
  · next position hposition =>
    split at htry
    · cases htry
    · next hkey =>
      cases htry
      -- the index leads to the row with the key of the id, and the new row has this key as well
      have hkeys : (DataTable.mk table.name (table.rows.setIfInBounds position row)
          table.index).keys = table.keys := by
        rw [h.index_eq, getElem?_positionsFrom_iff h.nodup, keys, List.getElem?_map] at hposition
        obtain ⟨old, hold, holdKey⟩ := Option.map_eq_some_iff.mp hposition
        rw [keys, Array.toList_setIfInBounds]
        exact map_set_of_eq hold ((not_not.mp hkey).trans holdKey.symm)
      exact ⟨hkeys, hkeys ▸ h.nodup, h.index_eq.trans (congrArg _ hkeys.symm)⟩

end Indexed

end DataTable

/-! ### Stores -/

/-- The type and the keys of a table. -/
def AnyTable.outline (t : AnyTable c) : c.Id × List String := (t.id, t.keys)

/-- The type and the keys of a data table. -/
def AnyDataTable.outline (t : AnyDataTable c) : c.Id × List String := (t.id, t.table.keys)

/-- Loaded tables are those of a container: at each position they have its type and its keys. -/
structure LoadedTables.Serves (l : LoadedTables c) (b : Container c) : Prop where
  names_eq : l.names = positionsFrom 0 ∅ b.sheetNames
  outlines_eq : l.tables.toList.map AnyDataTable.outline = b.tables.toList.map AnyTable.outline
  indexed : ∀ t ∈ l.tables.toList, t.table.Indexed

/-- A row that is to replace the one under an id in a sheet. -/
structure RowUpdate (c : Catalog) where
  type : c.Id
  sheet : String
  id : (c.type type).id.El
  row : (c.type type).Row

namespace DataStore

variable {s next : DataStore c} {b : Container c}

/-- A store serves a container. -/
def Serves (s : DataStore c) (b : Container c) : Prop := ∃ l, s.loaded = some l ∧ l.Serves b

/-- The store after an update, which leaves it as it is if it fails. -/
def update (s : DataStore c) (u : RowUpdate c) : DataStore c :=
  match s.trySet u.type u.sheet u.id u.row with
  | .ok next => next
  | .error _ => s

/-- The store after updates, one after the other. -/
def updateEach (s : DataStore c) (us : List (RowUpdate c)) : DataStore c := us.foldl update s

/-- A store follows a reference to a row of a sheet: the row has the key of the reference, and it is
the row that the sheet gives for the key and for its id. -/
structure Follows (s : DataStore c) (i : c.Id) (sheet : String) (r : SheetRef)
    (row : (c.type i).Row) : Prop where
  resolve_eq : s.resolve i r = ⟨some row⟩
  key_eq : (c.type i).key row = r.key
  table : ∃ table, s.table i sheet = .ok table ∧ table.byKey r.key = ⟨some row⟩ ∧
    ∀ id, (c.type i).id.key id = r.key → table.byId id = ⟨some row⟩

/-- Whatever updates are made, a store follows a resolved reference in the sheet of a container that
it is resolved to, and this is a sheet of the record type that the reference is to. -/
def FollowsAlways (s : DataStore c) (b : Container c) (r : TargetRef) : Prop :=
  ∀ k, r.ref.resolved = some k → ∃ t, b.tables[k.sheet.toNat]? = some t ∧ t.recordName = r.target ∧
    ∀ us, ∃ row, (s.updateEach us).Follows t.id t.name r.ref row

/-! ### Taking over -/

theorem dataTables_eq_ok {ts : List (AnyTable c)} (h : ∀ t ∈ ts, t.table.Indexed) :
    dataTables ts = .ok (ts.map fun t => ⟨t.id, t.name, t.table.rows, t.table.index⟩) := by
  induction ts with
  | nil => rfl
  | cons t rest ih =>
    obtain ⟨hfirst, hrest⟩ := List.forall_mem_cons.mp h
    have hname : t.name = t.table.name := rfl
    rw [dataTables, hname, DataTable.ofRows_eq_ok hfirst, ih hrest]
    rfl

/-- A container with distinct keys is taken over, and served then. -/
theorem serve_eq_ok (h : b.Indexed) : ∃ s, serve b = (s, .ok ()) ∧ s.Serves b := by
  have hcontainer := dataTables_eq_ok h.tables
  refine ⟨_, by rw [serve, ofContainer, hcontainer], _, rfl, rfl, ?_, ?_⟩
  · rw [List.toList_toArray, List.map_map]
    rfl
  · rw [List.toList_toArray]
    exact List.forall_mem_map.mpr fun t ht => ⟨(h.tables t ht).nodup, (h.tables t ht).index_eq⟩

/-- A container is refused if its first table is. -/
theorem serve_eq_error {t : AnyTable c} {rest : List (AnyTable c)} {e : TableError}
    (htables : b.tables.toList = t :: rest)
    (h : DataTable.ofRows (c.type t.id) t.name t.table.rows = .error e) :
    serve b = (empty c, .error e) := by
  rw [serve, ofContainer, htables, dataTables, h]

/-! ### Replacing rows -/

@[simp] theorem as?_self {i : c.Id} (table : DataTable (c.type i)) :
    (AnyDataTable.mk i table).as? i = some table := dif_pos rfl

theorem as?_eq_some_iff {t : AnyDataTable c} {i : c.Id} {table : DataTable (c.type i)} :
    t.as? i = some table ↔ t = ⟨i, table⟩ := by
  constructor
  · intro h
    rw [AnyDataTable.as?] at h
    split at h
    · next hid =>
      subst hid
      rw [← Option.some.inj h]
    · cases h
  · rintro rfl
    exact as?_self table

theorem locate_eq_ok_iff {i : c.Id} {name : String} {l : LoadedTables c} {position : Nat}
    {table : DataTable (c.type i)} : s.locate i name = .ok (l, position, table) ↔
      s.loaded = some l ∧ l.names[name]? = some position ∧
        l.tables[position]? = some ⟨i, table⟩ := by
  constructor
  · intro h
    rw [locate] at h
    split at h
    · cases h
    · next l' hl =>
      split at h
      · cases h
      · next hname =>
        split at h
        · cases h
        · next hposition =>
          split at h
          · next hid =>
            cases h
            exact ⟨hl, hname, hposition.trans (congrArg some (as?_eq_some_iff.mp hid))⟩
          · cases h
  · rintro ⟨hl, hname, hposition⟩
    simp only [locate, hl, hname, hposition, as?_self]

/-- What replacing a row does: one table of the store is replaced by one with the row. -/
theorem exists_of_trySet {i : c.Id} {name : String} {id : (c.type i).id.El} {row : (c.type i).Row}
    (h : s.trySet i name id row = .ok next) : ∃ l position table table',
      s.loaded = some l ∧ l.tables[position]? = some ⟨i, table⟩ ∧
        table.trySet id row = .ok table' ∧
        next = ⟨some { l with tables := l.tables.setIfInBounds position ⟨i, table'⟩ }⟩ := by
  rw [DataStore.trySet] at h
  split at h
  · cases h
  · next l position table hlocate =>
    obtain ⟨hl, -, hposition⟩ := locate_eq_ok_iff.mp hlocate
    split at h
    · cases h
    · next writable hwritable =>
      obtain rfl : table = writable := by
        rw [DataTable.writable?] at hwritable
        split at hwritable
        · exact Except.ok.inj hwritable
        · cases hwritable
      split at h
      · cases h
      · next table' htry =>
        exact ⟨l, position, table, table', hl, hposition, htry, (Except.ok.inj h).symm⟩

namespace Serves

/-- Replacing a row keeps the sheets and the keys. -/
theorem trySet (h : s.Serves b) {i : c.Id} {name : String} {id : (c.type i).id.El}
    {row : (c.type i).Row} (htry : s.trySet i name id row = .ok next) : next.Serves b := by
  obtain ⟨l', hl', hserves⟩ := h
  obtain ⟨l, position, table, table', hl, hposition, hset, rfl⟩ := exists_of_trySet htry
  obtain rfl : l = l' := Option.some.inj (hl.symm.trans hl')
  rw [← Array.getElem?_toList] at hposition
  obtain ⟨hkeys, hindexed⟩ :=
    (hserves.indexed _ (List.mem_of_getElem? hposition)).trySet_eq_ok hset
  refine ⟨_, rfl, hserves.names_eq, ?_, ?_⟩
  · rw [Array.toList_setIfInBounds, ← hserves.outlines_eq]
    exact map_set_of_eq hposition (congrArg (Prod.mk i) hkeys)
  · rw [Array.toList_setIfInBounds]
    intro t ht
    rcases List.mem_or_eq_of_mem_set ht with hmem | rfl
    · exact hserves.indexed t hmem
    · exact hindexed

/-- An update keeps the sheets and the keys, whether it succeeds or fails. -/
theorem update (h : s.Serves b) (u : RowUpdate c) : (s.update u).Serves b := by
  rw [DataStore.update]
  split
  · next htry => exact h.trySet htry
  · exact h

/-- Any updates keep the sheets and the keys. -/
theorem updateEach (h : s.Serves b) (us : List (RowUpdate c)) : (s.updateEach us).Serves b := by
  induction us generalizing s with
  | nil => exact h
  | cons u rest ih => exact ih (h.update u)

/-! ### Following references -/

/-- A reference that is resolved to a row of its key is followed to a row of that key. -/
theorem follows (h : s.Serves b) (hb : b.Indexed) {t : AnyTable c} {r : SheetRef} {k : RowKey}
    (hresolved : r.resolved = some k) (ht : b.tables[k.sheet.toNat]? = some t)
    (hkey : t.keys[k.row.toNat]? = some r.key) : ∃ row, s.Follows t.id t.name r row := by
  obtain ⟨l, hl, hserves⟩ := h
  obtain ⟨id, table⟩ := t
  -- the store has a table of that type with these keys at the same position
  have houtline := congrArg (·[k.sheet.toNat]?) hserves.outlines_eq
  simp only [List.getElem?_map, Array.getElem?_toList, ht, Option.map_some] at houtline
  obtain ⟨⟨id, data⟩, hdata, houtline⟩ := Option.map_eq_some_iff.mp houtline
  obtain ⟨rfl, hkeys⟩ := Prod.mk.inj houtline
  have hindexed : data.Indexed := hserves.indexed ⟨id, data⟩
    (List.mem_of_getElem? (Array.getElem?_toList.trans hdata))
  obtain ⟨row, hrow, hposition, hbyKey⟩ :=
    hindexed.byKey_eq ((congrArg (·[k.row.toNat]?) hkeys).trans hkey)
  refine ⟨row, ?_, hrow, data, ?_, hbyKey, fun x hx => ?_⟩
  · simp only [resolve, hl, hresolved, hdata, Option.bind_some, as?_self, hposition]
  · -- names of sheets are distinct, so the name of this one leads back to it
    have hsheet : b.sheetNames[k.sheet.toNat]? = some table.name := by
      rw [Container.sheetNames, List.getElem?_map, Array.getElem?_toList, ht]
      rfl
    have hnames : l.names[table.name]? = some k.sheet.toNat := by
      rw [hserves.names_eq, getElem?_positionsFrom_iff hb.nodup, hsheet]
    have hlocate := locate_eq_ok_iff.mpr ⟨hl, hnames, hdata⟩
    rw [DataStore.table]
    exact congrArg (Except.map _) hlocate
  · rw [DataTable.byId, hx, hbyKey]

/-- A reference that is resolved to the first row of its key is followed after any updates. -/
theorem followsAlways (h : s.Serves b) (hb : b.Indexed) {r : TargetRef}
    (hfirst : ∀ k, r.ref.resolved = some k → b.FirstRow r.target r.ref.key k) :
    s.FollowsAlways b r := by
  intro k hk
  obtain ⟨t, ht, hname, hkey⟩ := (hfirst k hk).row
  exact ⟨t, ht, hname, fun us => (h.updateEach us).follows hb hk ht hkey⟩

end Serves

end DataStore

end TypedSheets
