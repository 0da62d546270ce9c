import TypedSheets.Artifact.Load
import TypedSheets.Artifact.Manifest
import TypedSheets.Proofs.Artifact.Process
import TypedSheets.Proofs.Artifact.Store
import TypedSheets.Proofs.Container.Indexed
import TypedSheets.Proofs.Table.Binary

/-!
# Loading what was kept

A manifest is read back from what is kept of it, if its names and lists are not too long for their
lengths to be told. If a store gives the rows of each sheet of its manifest, and each is declared
with its record type, the container is rebuilt: its naming, the order of its sheets and rows, and
the rows themselves.

A store may hold anything: a manifest that another program has written, tables that are missing or
of another kind, bytes that are no rows. Loading checks all of it. If it gives a container, then
every table of it is declared and holds what the bytes under its keys are read as; if something does
not fit, it gives an error.

## Main definitions

* `Manifest.Fits` — no name and no list in a manifest is too long
* `AnyTable.artifact` — what the manifest says of a table
* `ContainerSchema.Declares` — a schema declares a sheet with the record type of its table
* `ArtifactStore.HoldsRow` — the bytes of a store under a key are those of a row with that key
* `ContainerSchema.SheetLoadable`, `ContainerSchema.Loadable` — a sheet, and all of a store, fit a
  schema
* `ContainerSchema.RestoresSheet`, `ContainerSchema.Restores` — a table, and a container, hold what
  a store has of them

## Main results

* `Manifest.decode?_encode` — a manifest is read back
* `ArtifactStore.rows_updated` — the rows that were written are given
* `ContainerSchema.insert_next` — the tables of a container are added one after the other
* `ContainerSchema.run_load` — the container is rebuilt
* `ArtifactStore.rows_eq_ok_iff` — which rows a store gives for keys
* `ContainerSchema.of_loadSheet`, `ContainerSchema.loadSheet_eq_ok` — one sheet, in both directions
* `ContainerSchema.exists_load_of_loadable`, `ContainerSchema.exists_error_of_not_loadable` — a
  store that fits is loaded, and no other one
* `ContainerSchema.load_outcome` — loading restores the container if the store fits, and else fails
-/

namespace TypedSheets

/-! ### Manifests -/

section Manifest

open Bytes

/-- The names and the keys of a sheet are not too long or too many. -/
structure SheetArtifact.Fits (s : SheetArtifact) : Prop where
  name : TextFits s.name
  fileName : TextFits s.fileName
  record : TextFits s.record
  keys : ListFits s.keys
  key : ∀ key ∈ s.keys, TextFits key

/-- The names, keys and sheets of a manifest are not too long or too many. -/
structure Manifest.Fits (m : Manifest) : Prop where
  bakedAt : TextFits m.bakedAt.text
  sheets : ListFits m.sheets
  sheet : ∀ s ∈ m.sheets, s.Fits

theorem readsBack_naming (n : Naming) :
    ReadsBack (fun n : Naming => encodeNat n.index) decodeNaming n := by
  intro rest
  have hn : decodeNat 4 (encodeNat n.index ++ rest) = some (n.index, rest) :=
    decodeNat_encodeNat (by decide) (by cases n <;> decide) rest
  rw [decodeNaming, hn]
  cases n <;> rfl

theorem SheetArtifact.readsBack {s : SheetArtifact} (h : s.Fits) :
    ReadsBack SheetArtifact.encode SheetArtifact.decode s := by
  intro rest
  have hs := readsBack_pair (p := (s.name, s.fileName, s.record, s.keys)) (readsBack_string h.name)
    (readsBack_pair (readsBack_string h.fileName) (readsBack_pair (readsBack_string h.record)
      (readsBack_list h.keys fun key hkey => readsBack_string (h.key key hkey)))) rest
  simp only [encode, decode, hs, Option.map_some]

theorem Timestamp.ofText?_text (t : Timestamp) : Timestamp.ofText? t.text = some t := by
  rw [ofText?, dif_pos t.isTimestamp_text]

/-- A manifest is read back. -/
theorem Manifest.decode?_encode {m : Manifest} (h : m.Fits) : decode? m.encode = some m := by
  have hm := readsBack_pair (p := (m.naming, m.bakedAt.text, m.sheets)) (readsBack_naming m.naming)
    (readsBack_pair (readsBack_string h.bakedAt)
      (readsBack_list h.sheets fun s hs => SheetArtifact.readsBack (h.sheet s hs))) []
  rw [List.append_nil] at hm
  have hbytes : m.encode = encodePair (fun n : Naming => encodeNat n.index)
      (encodePair encodeString (encodeList SheetArtifact.encode))
      (m.naming, m.bakedAt.text, m.sheets) := rfl
  rw [decode?, hbytes, hm]
  simp only [Timestamp.ofText?_text, Option.map_some]

end Manifest

/-! ### Containers -/

variable {c : Catalog}

/-- What the manifest says of a table that is kept in a file. -/
def AnyTable.artifact (t : AnyTable c) (file : String) : SheetArtifact :=
  ⟨t.name, file, t.recordName, t.keys⟩

/-- Rows that were written with distinct keys are given when they are asked for, in the order in
which they are. -/
theorem ArtifactStore.rows_updated {s : ArtifactStore} {file : String} {es : KeptRows}
    {removed : List String} {rows kept : List (String × List UInt8)}
    (htable : s.table? (rowsTable file) = some (.rows (updated es removed rows)))
    (hrows : (rows.map Prod.fst).Nodup) (hkept : kept ⊆ rows) :
    s.rows file (kept.map Prod.fst) = .ok kept := by
  rw [ArtifactStore.rows, htable]
  split
  · next hempty =>
    rw [List.isEmpty_iff, List.map_eq_nil_iff] at hempty
    rw [hempty]
  · exact rowsIn_updated hrows hkept _

namespace ContainerSchema

/-- A schema declares a sheet with the record type of its table. -/
def Declares (schema : ContainerSchema c) (t : AnyTable c) : Prop :=
  ∃ d, schema.find? t.name = some d ∧ d.id = t.id

variable {schema : ContainerSchema c} {b last : Container c} {store : ArtifactStore}

/-- The table of a sheet that is kept and declared is restored and added. -/
theorem restore_eq_ok {t : AnyTable c} {kept : List (String × List UInt8)} (file : String)
    (hdeclares : schema.Declares t)
    (hrestore : Table.restore (c.type t.id) t.name kept = .ok t.table) :
    ∃ d, schema.declared (t.artifact file) = .ok d ∧
      restoreSheet b d t.name kept = b.insert t := by
  obtain ⟨⟨name, id⟩, hfind, rfl⟩ := hdeclares
  refine ⟨⟨name, t.id⟩, ?_, ?_⟩
  · have hfind' : schema.find? (t.artifact file).name = some ⟨name, t.id⟩ := hfind
    rw [declared, hfind']
    exact if_neg fun hne => hne rfl
  · rw [restoreSheet, hrestore]

/-- The next table of a container is added to those before it. -/
theorem insert_next {t : AnyTable c} {ts : List (AnyTable c)} (hb : b.Indexed)
    (hlast : last.Indexed) (htables : last.tables.toList = b.tables.toList ++ t :: ts) :
    b.insert t = .ok (b.push t) := by
  have hmem : t ∈ last.tables.toList := by simp [htables]
  have hnew : t.name ∉ b.sheetNames := by
    have hnodup := hlast.nodup
    rw [Container.sheetNames, htables, List.map_append, List.map_cons,
      List.perm_middle.nodup_iff] at hnodup
    exact fun hname => (List.nodup_cons.mp hnodup).1 (List.mem_append_left _ hname)
  have hsize : b.size < maxSheets := by
    have hle := hlast.sheets_le
    rw [Container.size, ← Array.length_toList, htables, List.length_append, List.length_cons,
      Array.length_toList] at hle
    rw [Container.size]
    omega
  exact hb.insert_eq_ok_iff.mpr ⟨⟨hnew, hsize, hlast.rows_le t hmem⟩, rfl⟩

/-- Sheets that are kept, declared and restored are added to a container. -/
theorem run_loadSheets {ts : List (AnyTable c)} {files : List String} (hb : b.Indexed)
    (hlast : last.Indexed) (hnaming : b.naming = last.naming)
    (htables : last.tables.toList = b.tables.toList ++ ts)
    (hrows : List.Forall₂ (fun t file => store.rows file t.keys = .ok t.table.encode) ts files)
    (hsheets : ∀ t ∈ ts, schema.Declares t ∧
      Table.restore (c.type t.id) t.name t.table.encode = .ok t.table) :
    (schema.loadSheets b (List.zipWith AnyTable.artifact ts files)).run store =
      (.ok last, store) := by
  -- on the tables still to be read: those read before them are at the front of the container
  induction hrows generalizing b with
  | nil =>
    rw [List.append_nil] at htables
    rw [hb.ext hlast hnaming htables.symm]
    rfl
  | @cons t file ts files hrow _ ih =>
    obtain ⟨⟨hdeclares, hrestore⟩, hrest⟩ := List.forall_mem_cons.mp hsheets
    obtain ⟨d, hd, hinsert⟩ := restore_eq_ok (b := b) file hdeclares hrestore
    have hmem : t ∈ last.tables.toList := by simp [htables]
    -- the next table is pushed since there is room for it in the container that comes out last
    have hpush := insert_next hb hlast htables
    have hkeys : (t.artifact file).keys = t.keys := rfl
    rw [List.zipWith_cons_cons, loadSheets, hd]
    simp only [StoreProcess.run]
    rw [show (t.artifact file).fileName = file from rfl, hkeys, hrow]
    simp only [show (t.artifact file).name = t.name from rfl, hinsert, hpush]
    refine ih (hb.insert (hlast.tables t hmem) hpush) hnaming ?_ hrest
    rw [htables, Container.tables_push, List.append_assoc]
    rfl

/-- A container is rebuilt from its manifest and its rows. -/
theorem run_load {m : Manifest} {files : List String} (hlast : last.Indexed)
    (hmanifest : store.manifest = .ok (some m)) (hnaming : m.naming = last.naming)
    (hartifacts : m.sheets = List.zipWith AnyTable.artifact last.tables.toList files)
    (hrows : List.Forall₂ (fun t file => store.rows file t.keys = .ok t.table.encode)
      last.tables.toList files)
    (hsheets : ∀ t ∈ last.tables.toList, schema.Declares t ∧
      Table.restore (c.type t.id) t.name t.table.encode = .ok t.table) :
    schema.load.run store = (.ok last, store) := by
  rw [load, StoreProcess.run, hmanifest]
  simp only [hartifacts]
  exact run_loadSheets (Container.indexed_empty c m.naming) hlast hnaming rfl hrows hsheets

end ContainerSchema

end TypedSheets

/-! ## What can be loaded -/

namespace TypedSheets

variable {c : Catalog}

/-! ### Rows of a store -/

namespace ArtifactStore

variable {store : ArtifactStore} {file : String} {keys : List String}
  {kept : List (String × List UInt8)}

/-- Bytes are kept under a key of a file, and they are those of a row with that key. -/
def HoldsRow (store : ArtifactStore) (file : String) (t : TableType) (key : String) (row : t.Row) :
    Prop :=
  ∃ bytes, store.row file key = .ok (some bytes) ∧ t.record.decode? bytes = some row ∧
    t.key row = key

/-- An entry of a store: the bytes that are kept under a key of a file. -/
def HasEntry (store : ArtifactStore) (file key : String) (entry : String × List UInt8) : Prop :=
  store.row file key = .ok (some entry.2) ∧ entry.1 = key

theorem rowsIn_eq_ok_iff {table : String} {es : KeptRows} :
    rowsIn table es keys = .ok kept ↔ List.Forall₂ (fun key entry =>
      Entries.get? compareText key es = some entry.2 ∧ entry.1 = key) keys kept := by
  induction keys generalizing kept with
  | nil => simp [rowsIn, eq_comm]
  | cons key rest ih =>
    rw [rowsIn, List.forall₂_cons_left_iff]
    constructor
    · intro h
      split at h
      · cases h
      · next bytes hbytes =>
        split at h
        · cases h
        · next rows hrows =>
          cases h
          exact ⟨(key, bytes), rows, ⟨hbytes, rfl⟩, ih.mp hrows, rfl⟩
    · rintro ⟨⟨_, bytes⟩, rows, ⟨hbytes, rfl⟩, hrows, rfl⟩
      rw [hbytes, ih.mpr hrows]

theorem hasEntry_eq {es : KeptRows} (h : store.table? (rowsTable file) = some (.rows es)) :
    store.HasEntry file = fun key entry =>
      Entries.get? compareText key es = some entry.2 ∧ entry.1 = key := by
  funext key entry
  simp [HasEntry, row, entries, h, Except.map]

/-- The rows that a store gives for keys are the bytes that it keeps under each of them. -/
theorem rows_eq_ok_iff :
    store.rows file keys = .ok kept ↔ List.Forall₂ (store.HasEntry file) keys kept := by
  rw [rows]
  cases keys with
  | nil => simp [eq_comm]
  | cons key rest =>
    rw [if_neg (by simp)]
    -- without a table of rows there is no entry for the first key
    have hnone : (∀ es, store.table? (rowsTable file) ≠ some (.rows es)) →
        ¬ List.Forall₂ (store.HasEntry file) (key :: rest) kept := by
      rintro htable (_ | ⟨⟨hrow, -⟩, -⟩)
      rw [row, entries] at hrow
      split at hrow
      · cases hrow
      · next es hes => exact htable es hes
      · cases hrow
    cases htable : store.table? (rowsTable file) with
    | none => exact iff_of_false (by simp) (hnone fun es => by simp [htable])
    | some table =>
      cases table with
      | rows es =>
        rw [hasEntry_eq htable]
        exact rowsIn_eq_ok_iff
      | foreign => exact iff_of_false (by simp) (hnone fun es => by simp [htable])

/-- Bytes of rows that are kept under keys are given, and are those of the rows. -/
theorem exists_forall₂_of_holdsRow {t : TableType}
    (h : ∀ key ∈ keys, ∃ row, store.HoldsRow file t key row) :
    ∃ kept rows, List.Forall₂ (store.HasEntry file) keys kept ∧
      List.Forall₂ (Table.KeptAs t) kept rows := by
  induction keys with
  | nil => exact ⟨[], [], .nil, .nil⟩
  | cons key rest ih =>
    obtain ⟨⟨row, bytes, hbytes, hdecode, hkey⟩, hrest⟩ := List.forall_mem_cons.mp h
    obtain ⟨kept, rows, hentries, hkept⟩ := ih hrest
    exact ⟨(key, bytes) :: kept, row :: rows, .cons ⟨hbytes, rfl⟩ hentries,
      .cons ⟨hdecode, hkey⟩ hkept⟩

theorem exists_holdsRow {t : TableType} {rows : List t.Row}
    (h : List.Forall₂ (store.HoldsRow file t) keys rows) :
    ∀ key ∈ keys, ∃ row, store.HoldsRow file t key row := by
  induction h with
  | nil => exact fun key hkey => absurd hkey List.not_mem_nil
  | cons hrow _ ih => exact List.forall_mem_cons.mpr ⟨⟨_, hrow⟩, ih⟩

theorem HasEntry.forall₂ {t : TableType} {rows : List t.Row}
    (hentries : List.Forall₂ (store.HasEntry file) keys kept)
    (hkept : List.Forall₂ (Table.KeptAs t) kept rows) :
    List.Forall₂ (store.HoldsRow file t) keys rows := by
  induction hentries generalizing rows with
  | nil =>
    cases hkept
    exact .nil
  | cons hentry _ ih =>
    obtain _ | ⟨hrow, hrest⟩ := hkept
    exact .cons ⟨_, hentry.1, hrow.1, hrow.2.trans hentry.2⟩ (ih hrest)

end ArtifactStore

namespace ContainerSchema

variable {schema : ContainerSchema c} {store : ArtifactStore} {b next last : Container c}
  {a : SheetArtifact} {sheets : List SheetArtifact}

/-! ### What fits -/

/-- A store has what a manifest says of a sheet. The sheet is declared, with the record type that
the manifest names; its keys are distinct and get places; and under each key there are the bytes of
a row with that key. -/
structure SheetLoadable (schema : ContainerSchema c) (store : ArtifactStore) (a : SheetArtifact) :
    Prop where
  declared : ∃ d, schema.find? a.name = some d ∧ d.recordName = a.record ∧
    ∀ key ∈ a.keys, ∃ row, store.HoldsRow a.fileName (c.type d.id) key row
  nodup : a.keys.Nodup
  length_le : a.keys.length ≤ RowKey.maxRow.toNat + 1

/-- A store fits a schema: it has no manifest, or it has what its manifest says of each sheet, and
the sheets have distinct names and get places. -/
def Loadable (schema : ContainerSchema c) (store : ArtifactStore) : Prop :=
  store.manifest = .ok none ∨ ∃ m, store.manifest = .ok (some m) ∧
    (m.sheets.map SheetArtifact.name).Nodup ∧ m.sheets.length ≤ maxSheets ∧
    ∀ a ∈ m.sheets, schema.SheetLoadable store a

/-- A table holds what a store has of a sheet: it has the name of the sheet, the record type that is
declared for it and no other than the manifest names, the keys of the manifest in their order, and
the rows that the bytes under these keys are read as. -/
structure RestoresSheet (schema : ContainerSchema c) (store : ArtifactStore) (t : AnyTable c)
    (a : SheetArtifact) : Prop where
  name_eq : t.name = a.name
  declared : ∃ d, schema.find? a.name = some d ∧ d.id = t.id
  record_eq : t.recordName = a.record
  keys_eq : t.keys = a.keys
  nodup : t.keys.Nodup
  rows : List.Forall₂ (store.HoldsRow a.fileName (c.type t.id)) a.keys t.table.rows.toList

/-- A container holds what a store has: nothing if there is no manifest, and else the sheets of the
manifest in their order. -/
def Restores (schema : ContainerSchema c) (store : ArtifactStore) (b : Container c) : Prop :=
  (store.manifest = .ok none ∧ b = .empty c schema.naming) ∨
    ∃ m, store.manifest = .ok (some m) ∧ b.naming = m.naming ∧
      List.Forall₂ (schema.RestoresSheet store) b.tables.toList m.sheets

/-! ### One sheet -/

/-- The container with one more sheet of a store. -/
def loadSheet (schema : ContainerSchema c) (store : ArtifactStore) (b : Container c)
    (a : SheetArtifact) : Except BakeError (Container c) :=
  match schema.declared a with
  | .error e => .error e
  | .ok d =>
    match store.rows a.fileName a.keys with
    | .error e => .error e
    | .ok kept => restoreSheet b d a.name kept

theorem run_loadSheets_cons (schema : ContainerSchema c) (store : ArtifactStore) (b : Container c)
    (a : SheetArtifact) (rest : List SheetArtifact) :
    (schema.loadSheets b (a :: rest)).run store =
      match schema.loadSheet store b a with
      | .error e => (.error e, store)
      | .ok next => (schema.loadSheets next rest).run store := by
  rw [loadSheets, loadSheet]
  cases schema.declared a with
  | error e => rfl
  | ok d =>
    rw [StoreProcess.run]
    cases store.rows a.fileName a.keys with
    | error e => rfl
    | ok kept =>
      dsimp only
      cases restoreSheet b d a.name kept with
      | error e => rfl
      | ok next => rfl

theorem declared_eq_ok_iff {d : SheetDecl c} :
    schema.declared a = .ok d ↔ schema.find? a.name = some d ∧ d.recordName = a.record := by
  rw [declared]
  cases schema.find? a.name with
  | none => simp
  | some other =>
    dsimp only
    split
    · next hne =>
      refine iff_of_false (by simp) ?_
      rintro ⟨hd, hrecord⟩
      exact hne (Option.some.inj hd ▸ hrecord)
    · next heq =>
      rw [not_not] at heq
      constructor
      · rintro ⟨⟩
        exact ⟨rfl, heq⟩
      · rintro ⟨⟨⟩, -⟩
        rfl

/-- A sheet that is added fits, and the table of it holds what the store has. -/
theorem of_loadSheet (hb : b.Indexed) (h : schema.loadSheet store b a = .ok next) :
    (schema.SheetLoadable store a ∧ a.name ∉ b.sheetNames ∧ b.size < maxSheets) ∧
      next.Indexed ∧ ∃ t, next = b.push t ∧ schema.RestoresSheet store t a := by
  rw [loadSheet] at h
  split at h
  · cases h
  · next d hd =>
    split at h
    · cases h
    · next kept hrows =>
      rw [restoreSheet] at h
      split at h
      · cases h
      · next table htable =>
        obtain ⟨hfind, hrecord⟩ := declared_eq_ok_iff.mp hd
        obtain ⟨hname, hkeys⟩ := Table.keys_of_restore htable
        obtain ⟨hindexed, rows, hlist, hkept⟩ :=
          (Table.indexed_empty (c.type d.id) a.name).of_restoreFrom htable
        obtain ⟨⟨hnew, hsize, hlength⟩, hpush⟩ := hb.insert_eq_ok_iff.mp h
        rw [ArtifactStore.map_fst_rows hrows] at hkeys
        -- the bytes that were decoded are those that the store holds under the listed keys
        have hheld : List.Forall₂ (store.HoldsRow a.fileName (c.type d.id)) a.keys
            table.rows.toList :=
          hlist ▸ ArtifactStore.HasEntry.forall₂ (ArtifactStore.rows_eq_ok_iff.mp hrows) hkept
        have hnodup : a.keys.Nodup := hkeys ▸ hindexed.nodup
        refine ⟨⟨⟨⟨d, hfind, hrecord, fun key hkey => ?_⟩, hnodup, ?_⟩, hname ▸ hnew, hsize⟩,
          hb.insert hindexed h, ⟨d.id, table⟩, hpush,
          hname, ⟨d, hfind, rfl⟩, hrecord, hkeys, hindexed.nodup, hheld⟩
        · exact ArtifactStore.exists_holdsRow hheld key hkey
        · rw [← hkeys, Table.length_keys]
          exact hlength

/-- A sheet that fits is added to a container that has no sheet of its name and a place left. -/
theorem loadSheet_eq_ok (hb : b.Indexed) (ha : schema.SheetLoadable store a)
    (hnew : a.name ∉ b.sheetNames) (hsize : b.size < maxSheets) :
    ∃ next, schema.loadSheet store b a = .ok next := by
  obtain ⟨⟨d, hfind, hrecord, hheld⟩, hnodup, hlength⟩ := ha
  obtain ⟨kept, rows, hentries, hkept⟩ := ArtifactStore.exists_forall₂_of_holdsRow hheld
  have hrows := ArtifactStore.rows_eq_ok_iff.mpr hentries
  have hkeys := ArtifactStore.map_fst_rows hrows
  obtain ⟨table, htable, -, -, -⟩ :=
    (Table.indexed_empty (c.type d.id) a.name).restoreFrom_eq_ok hkept (hkeys ▸ hnodup)
  obtain ⟨hname, htableKeys⟩ := Table.keys_of_restore htable
  refine ⟨b.push ⟨d.id, table⟩, ?_⟩
  rw [loadSheet, declared_eq_ok_iff.mpr ⟨hfind, hrecord⟩, hrows]
  dsimp only
  rw [restoreSheet, Table.restore, htable]
  refine hb.insert_eq_ok_iff.mpr ⟨⟨fun hmem => hnew (hname ▸ hmem), hsize, ?_⟩, rfl⟩
  rw [AnyTable.size, ← Table.length_keys, htableKeys, hkeys]
  exact hlength

/-! ### All sheets -/

/-- Sheets fit what is left of a container: their names are new and distinct, and there are places
for them. -/
def SheetsLoadable (schema : ContainerSchema c) (store : ArtifactStore) (b : Container c)
    (sheets : List SheetArtifact) : Prop :=
  (b.sheetNames ++ sheets.map SheetArtifact.name).Nodup ∧
    b.size + sheets.length ≤ maxSheets ∧ ∀ a ∈ sheets, schema.SheetLoadable store a

theorem SheetsLoadable.first (h : schema.SheetsLoadable store b (a :: sheets)) :
    schema.SheetLoadable store a ∧ a.name ∉ b.sheetNames ∧ b.size < maxSheets := by
  obtain ⟨hnodup, hlength, hsheets⟩ := h
  rw [List.map_cons, List.perm_middle.nodup_iff] at hnodup
  rw [List.length_cons] at hlength
  exact ⟨hsheets a List.mem_cons_self,
    fun hmem => (List.nodup_cons.mp hnodup).1 (List.mem_append_left _ hmem), by omega⟩

/-- Sheets of which the first fits do so exactly if the others fit once the first is added. -/
theorem sheetsLoadable_cons_iff (ha : schema.SheetLoadable store a) {t : AnyTable c}
    (hname : t.name = a.name) : schema.SheetsLoadable store b (a :: sheets) ↔
      schema.SheetsLoadable store (b.push t) sheets := by
  have hsize : (b.push t).size = b.size + 1 := Array.size_push t
  rw [SheetsLoadable, SheetsLoadable, Container.sheetNames_push, hname, hsize, List.map_cons,
    List.append_assoc, List.singleton_append, List.length_cons, List.forall_mem_cons,
    and_iff_right ha, Nat.add_assoc, Nat.add_comm 1]

/-- Sheets that fit are added to a container one after the other, and their tables hold what the
store has. If one does not fit the process fails. -/
theorem run_loadSheets_outcome (hb : b.Indexed) (sheets : List SheetArtifact) :
    (schema.SheetsLoadable store b sheets ∧ ∃ last,
      (schema.loadSheets b sheets).run store = (.ok last, store) ∧ last.Indexed ∧
        last.naming = b.naming ∧ ∃ ts, last.tables.toList = b.tables.toList ++ ts ∧
          List.Forall₂ (schema.RestoresSheet store) ts sheets) ∨
      (¬ schema.SheetsLoadable store b sheets ∧ ∃ e,
        (schema.loadSheets b sheets).run store = (.error e, store)) := by
  induction sheets generalizing b with
  | nil =>
    refine Or.inl ⟨⟨?_, hb.sheets_le, fun a ha => absurd ha List.not_mem_nil⟩, b, rfl, hb, rfl, [],
      (List.append_nil _).symm, .nil⟩
    exact (List.append_nil b.sheetNames).symm ▸ hb.nodup
  | cons a rest ih =>
    -- the first sheet is loaded or it stops the process; what is behind it counts only if it is
    -- loaded
    rw [run_loadSheets_cons]
    cases hload : schema.loadSheet store b a with
    | error e =>
      refine Or.inr ⟨fun h => ?_, e, rfl⟩
      obtain ⟨ha, hnew, hsize⟩ := h.first
      obtain ⟨next, hnext⟩ := loadSheet_eq_ok hb ha hnew hsize
      rw [hload] at hnext
      cases hnext
    | ok next =>
      obtain ⟨⟨ha, -, -⟩, hnext, t, rfl, ht⟩ := of_loadSheet hb hload
      rw [sheetsLoadable_cons_iff ha ht.name_eq]
      refine (ih hnext).imp_left ?_
      rintro ⟨hrest, last, hrun, hlast, hnaming, ts, hts, hrestores⟩
      refine ⟨hrest, last, hrun, hlast, hnaming, t :: ts, ?_, .cons ht hrestores⟩
      rw [hts, Container.tables_push, List.append_assoc]
      rfl

theorem sheetsLoadable_empty_iff {naming : Naming} :
    schema.SheetsLoadable store (.empty c naming) sheets ↔
      (sheets.map SheetArtifact.name).Nodup ∧ sheets.length ≤ maxSheets ∧
        ∀ a ∈ sheets, schema.SheetLoadable store a := by
  have hnames : (Container.empty c naming).sheetNames = [] := rfl
  have hsize : (Container.empty c naming).size = 0 := rfl
  rw [SheetsLoadable, hnames, hsize, List.nil_append, Nat.zero_add]

/-- With a manifest in the store its sheets decide, read into a container without tables. -/
theorem loadable_iff_of_manifest {m : Manifest} (hmanifest : store.manifest = .ok (some m)) :
    schema.Loadable store ↔ schema.SheetsLoadable store (.empty c m.naming) m.sheets := by
  rw [sheetsLoadable_empty_iff, Loadable, hmanifest]
  constructor
  · rintro (hnone | ⟨_, ⟨⟩, h⟩)
    · cases hnone
    · exact h
  · exact fun h => Or.inr ⟨m, rfl, h⟩

theorem run_load_of_manifest {m : Manifest} (hmanifest : store.manifest = .ok (some m)) :
    schema.load.run store = (schema.loadSheets (.empty c m.naming) m.sheets).run store := by
  rw [load, StoreProcess.run, hmanifest]

/-- A store that fits a schema is loaded. -/
theorem exists_load_of_loadable (h : schema.Loadable store) :
    ∃ b, schema.load.run store = (.ok b, store) ∧ b.Indexed ∧ schema.Restores store b := by
  rcases id h with hmanifest | ⟨m, hmanifest, -⟩
  · refine ⟨_, ?_, Container.indexed_empty c _, Or.inl ⟨hmanifest, rfl⟩⟩
    rw [load, StoreProcess.run, hmanifest]
    rfl
  · rw [loadable_iff_of_manifest hmanifest] at h
    obtain ⟨-, last, hrun, hlast, hnaming, ts, hts, hrestores⟩ :=
      (run_loadSheets_outcome (Container.indexed_empty c m.naming)
        m.sheets).resolve_right fun hfailed => hfailed.1 h
    refine ⟨last, (run_load_of_manifest hmanifest).trans hrun, hlast,
      Or.inr ⟨m, hmanifest, hnaming, ?_⟩⟩
    rwa [hts]

/-- A store that does not fit a schema is not loaded. -/
theorem exists_error_of_not_loadable (h : ¬ schema.Loadable store) :
    ∃ e, schema.load.run store = (.error e, store) := by
  cases hmanifest : store.manifest with
  | error e =>
    refine ⟨e, ?_⟩
    rw [load, StoreProcess.run, hmanifest]
    rfl
  | ok found =>
    cases found with
    | none => exact absurd (Or.inl hmanifest) h
    | some m =>
      rw [loadable_iff_of_manifest hmanifest] at h
      rw [run_load_of_manifest hmanifest]
      exact ((run_loadSheets_outcome (Container.indexed_empty c m.naming)
        m.sheets).resolve_left fun hloaded => h hloaded.1).2

/-- What is loaded has distinct keys, with their positions. -/
theorem indexed_of_load {store' : ArtifactStore} (h : schema.load.run store = (.ok b, store')) :
    b.Indexed := by
  by_cases hloadable : schema.Loadable store
  · obtain ⟨b', hrun, hindexed, -⟩ := exists_load_of_loadable hloadable
    obtain ⟨⟨⟩, -⟩ := Prod.mk.inj (h.symm.trans hrun)
    exact hindexed
  · obtain ⟨e, hrun⟩ := exists_error_of_not_loadable hloadable
    cases h.symm.trans hrun

/-- Loading a store either gives a container that holds what the store has, or fails, and it leaves
the store as it is. It fails exactly if something in the store does not fit the schema: the manifest
cannot be read, two sheets have one name or there are too many, or a sheet is not declared, is of
another record type, repeats a key, has too many of them, or has a key without the bytes of a row
with that key. -/
theorem load_outcome (schema : ContainerSchema c) (store : ArtifactStore) :
    (schema.Loadable store ∧ ∃ b, schema.load.run store = (.ok b, store) ∧ b.Indexed ∧
      schema.Restores store b) ∨
      (¬ schema.Loadable store ∧ ∃ e, schema.load.run store = (.error e, store)) := by
  by_cases hloadable : schema.Loadable store
  · exact Or.inl ⟨hloadable, exists_load_of_loadable hloadable⟩
  · exact Or.inr ⟨hloadable, exists_error_of_not_loadable hloadable⟩

end ContainerSchema

end TypedSheets
