import TypedSheets.Proofs.Artifact.Loadable
import TypedSheets.Proofs.Bake.Serve

/-!
# A store answers as its container does

A data store makes tables of its own from the rows of a container, with an index of its own and
without the types. Nothing is lost by it: the container is always taken over, and every query is
answered with what the container has, by name, by type, by id and by place.

## Main definitions

* `Table.Pushed`, `Container.Inserted` — tables and containers that are put together by adding
* `Container.Made` — containers that were put together, loaded or baked
* `DataTable.Mirrors` — a data table has the name and the rows of a table, and finds them by id
* `SameAnswer` — two queries are answered alike, or with one error
* `DataStore.AnswersAs` — a store answers as a container does

## Main results

* `Table.pushed_iff_indexed`, `Container.inserted_iff_indexed` — what is put together by adding is
  what is indexed
* `DataStore.serve_eq` — the store that takes over a container
* `DataStore.answersAs_serving` — it answers as the container does
* `DataStore.serve_answersAs` — every container is taken over, and then answered for
-/

namespace TypedSheets

variable {c : Catalog}

/-! ### Putting together -/

namespace Table

variable {t : TableType} {table last : Table t}

/-- A table that is made of nothing by adding rows. -/
inductive Pushed : Table t → Prop
  | empty (name : String) : Pushed (Table.empty t name)
  | push {table next : Table t} {row : t.Row} (h : Pushed table)
      (hpush : table.push row = .ok next) : Pushed next

theorem Pushed.indexed (h : table.Pushed) : table.Indexed := by
  induction h with
  | empty name => exact indexed_empty t name
  | push _ hpush ih => exact ih.push hpush

/-- Rows whose keys are distinct are added one after the other. -/
theorem Pushed.of_append {rows : List t.Row} (h : table.Pushed) (hlast : last.Indexed)
    (hname : table.name = last.name) (hrows : last.rows.toList = table.rows.toList ++ rows) :
    last.Pushed := by
  induction rows generalizing table with
  | nil =>
    rw [List.append_nil] at hrows
    rwa [← h.indexed.ext hlast hname hrows.symm]
  | cons row rest ih =>
    have hnew : t.key row ∉ table.keys := fun hmem => by
      have hnodup := hlast.nodup
      rw [keys, hrows, List.map_append, List.map_cons, List.perm_middle.nodup_iff] at hnodup
      exact (List.nodup_cons.mp hnodup).1 (List.mem_append_left _ hmem)
    have hpush := h.indexed.push_eq_ok_iff.mpr ⟨hnew, rfl⟩
    refine ih (.push h hpush) hname ?_
    rw [hrows, rows_push hpush, Array.toList_push, List.append_assoc]
    rfl

/-- The tables that are made by adding rows are those with distinct keys and their index. -/
theorem pushed_iff_indexed : table.Pushed ↔ table.Indexed :=
  ⟨Pushed.indexed, fun h => Pushed.of_append (.empty table.name) h rfl rfl⟩

end Table

namespace Container

variable {b last : Container c}

/-- A container that is made of nothing by inserting tables that are made by adding rows. -/
inductive Inserted : Container c → Prop
  | empty (naming : Naming) : Inserted (Container.empty c naming)
  | insert {b next : Container c} {t : AnyTable c} (h : Inserted b) (ht : t.table.Pushed)
      (hinsert : b.insert t = .ok next) : Inserted next

theorem Inserted.indexed (h : b.Inserted) : b.Indexed := by
  induction h with
  | empty naming => exact indexed_empty c naming
  | insert _ ht hinsert ih => exact ih.insert ht.indexed hinsert

/-- The tables of a container that is indexed are inserted one after the other. -/
theorem Inserted.of_append {ts : List (AnyTable c)} (h : b.Inserted) (hlast : last.Indexed)
    (hnaming : b.naming = last.naming) (htables : last.tables.toList = b.tables.toList ++ ts) :
    last.Inserted := by
  induction ts generalizing b with
  | nil =>
    rw [List.append_nil] at htables
    rwa [← h.indexed.ext hlast hnaming htables.symm]
  | cons t rest ih =>
    have hmem : t ∈ last.tables.toList := by simp [htables]
    have hinsert := ContainerSchema.insert_next h.indexed hlast htables
    refine ih (.insert h (Table.pushed_iff_indexed.mpr (hlast.tables t hmem)) hinsert) hnaming ?_
    rw [htables, tables_push, List.append_assoc]
    rfl

/-- The containers that are made by inserting tables are those that are indexed. -/
theorem inserted_iff_indexed : b.Inserted ↔ b.Indexed :=
  ⟨Inserted.indexed, fun h => Inserted.of_append (.empty b.naming) h rfl rfl⟩

/-- A container that was put together by inserting tables, loaded from any store, or baked. The rows
of a bake have to keep their keys when they are linked. -/
inductive Made : Container c → Prop
  | inserted {b : Container c} (h : b.Inserted) : Made b
  | loaded {schema : ContainerSchema c} {store store' : ArtifactStore} {b : Container c}
      (h : schema.load.run store = (.ok b, store')) : Made b
  | baked {baker : Baker c} (hkeys : baker.KeepsKeys) {store store' : ArtifactStore}
      {out : BakeOutput c} (h : baker.bake.run store = (.ok out, store')) : Made out.container

/-- Every container could have been put together by inserting tables. -/
theorem Made.inserted_of (h : b.Made) : b.Inserted := by
  cases h with
  | inserted h => exact h
  | loaded h => exact inserted_iff_indexed.mpr (ContainerSchema.indexed_of_load h)
  | baked hkeys h => exact inserted_iff_indexed.mpr (Baker.indexed_of_run hkeys h)

end Container

/-! ### Answers -/

/-- A data table has the name and the rows of a table, and finds for every id what the table
finds. -/
structure DataTable.Mirrors {t : TableType} (data : DataTable t) (table : Table t) : Prop where
  name_eq : data.name = table.name
  rows_eq : data.rows = table.rows
  byId_eq : ∀ id, data.byId id = ⟨table.find? id⟩

/-- Two queries are answered by what stands in a relation, or with one error. -/
inductive SameAnswer {α β : Type} (R : α → β → Prop) :
    Except TableError α → Except TableError β → Prop
  | ok {x : α} {y : β} (h : R x y) : SameAnswer R (.ok x) (.ok y)
  | error (e : TableError) : SameAnswer R (.error e) (.error e)

/-- A store answers every query as a container does: the table of a name and a type, the first table
of a type, and what a reference is resolved to. -/
structure DataStore.AnswersAs (s : DataStore c) (b : Container c) : Prop where
  table : ∀ i name, SameAnswer DataTable.Mirrors (s.table i name) (b.table i name)
  sheetMissing_iff : ∀ i name,
    s.table i name = .error (.sheetMissing name) ↔ name ∉ b.sheetNames
  firstTable? : ∀ i, Option.Rel DataTable.Mirrors (s.firstTable? i) (b.firstTable? i)
  resolve_eq : ∀ i r k, r.resolved = some k → s.resolve i r = ⟨b.get? i k⟩

/-! ### Taking over -/

/-- The data table that a table is served as. -/
def Table.serving {t : TableType} (table : Table t) : DataTable t :=
  ⟨table.name, table.rows, table.index⟩

/-- The data table that a table is served as, with its type. -/
def AnyTable.serving (t : AnyTable c) : AnyDataTable c := ⟨t.id, t.table.serving⟩

theorem Table.mirrors_serving {t : TableType} (table : Table t) :
    table.serving.Mirrors table := by
  refine ⟨rfl, rfl, fun id => ?_⟩
  rw [DataTable.byId, DataTable.byKey, serving, find?, position?]
  cases table.index[t.id.key id]? <;> rfl

/-- A table and what it is served as are of the same type. -/
theorem AnyTable.as?_serving (t : AnyTable c) (i : c.Id) :
    t.serving.as? i = (t.as? i).map Table.serving := by
  by_cases h : t.id = i
  · subst h
    have hserving : t.serving.as? t.id = some t.table.serving := dif_pos rfl
    have htable : t.as? t.id = some t.table := dif_pos rfl
    rw [hserving, htable, Option.map_some]
  · have hserving : t.serving.as? i = none := dif_neg h
    have htable : t.as? i = none := dif_neg h
    rw [hserving, htable, Option.map_none]

namespace DataStore

variable {b : Container c}

/-- The tables of a container as they are served. -/
def servingTables (b : Container c) : LoadedTables c :=
  ⟨b.tables.map AnyTable.serving, b.byName⟩

/-- The store that serves the tables of a container. -/
def serving (b : Container c) : DataStore c := ⟨some (servingTables b)⟩

/-- A container that is indexed is taken over as it is. -/
theorem serve_eq (h : b.Indexed) : serve b = (serving b, .ok ()) := by
  have htables : (b.tables.toList.map AnyTable.serving).toArray = b.tables.map AnyTable.serving :=
    Array.toList_inj.mp (by simp)
  have hserve : serve b =
      (⟨some ⟨(b.tables.toList.map AnyTable.serving).toArray, b.byName⟩⟩, .ok ()) := by
    rw [serve, ofContainer, dataTables_eq_ok h.tables, h.byName_eq]
    rfl
  rw [hserve, htables]
  rfl

theorem getElem?_servingTables (b : Container c) (position : Nat) :
    (servingTables b).tables[position]? = b.tables[position]?.map AnyTable.serving :=
  Array.getElem?_map ..

theorem table_serving (b : Container c) (i : c.Id) (name : String) :
    (serving b).table i name = (b.table i name).map Table.serving := by
  have hloaded : (serving b).loaded = some (servingTables b) := rfl
  have hnames : (servingTables b).names = b.byName := rfl
  rw [table, locate, Container.table, Container.sheet?, Container.ordinal?, hloaded]
  dsimp only
  rw [hnames]
  cases b.byName[name]? with
  | none => rfl
  | some position =>
    rw [Option.bind_some]
    dsimp only
    rw [getElem?_servingTables]
    cases b.tables[position]? with
    | none => rfl
    | some t =>
      rw [Option.map_some]
      dsimp only
      rw [AnyTable.as?_serving]
      cases t.as? i with
      | none => rfl
      | some table => rfl

theorem firstTable?_serving (b : Container c) (i : c.Id) :
    (serving b).firstTable? i = (b.firstTable? i).map Table.serving := by
  have hfirst : (serving b).firstTable? i =
      (b.tables.map AnyTable.serving).toList.findSome? fun t => t.as? i := rfl
  rw [hfirst, Container.firstTable?, Array.toList_map, List.findSome?_map, List.map_findSome?]
  exact congrArg (fun f => b.tables.toList.findSome? f) (funext fun t => t.as?_serving i)

theorem resolve_serving (b : Container c) (i : c.Id) {r : SheetRef} {k : RowKey}
    (hk : r.resolved = some k) : (serving b).resolve i r = ⟨b.get? i k⟩ := by
  have hloaded : (serving b).loaded = some (servingTables b) := rfl
  rw [resolve, hk, Container.get?, hloaded]
  dsimp only
  rw [getElem?_servingTables]
  cases b.tables[k.sheet.toNat]? with
  | none => rfl
  | some t =>
    rw [Option.map_some, Option.bind_some, AnyTable.as?_serving]
    dsimp only
    cases t.as? i with
    | none => rfl
    | some table => rfl

/-- A sheet is missing for a store exactly if the container has none of that name. -/
theorem table_serving_eq_sheetMissing_iff (h : b.Indexed) (i : c.Id) (name : String) :
    (serving b).table i name = .error (.sheetMissing name) ↔ name ∉ b.sheetNames := by
  rw [table_serving, Container.table, ← h.sheet?_eq_none_iff]
  cases b.sheet? name with
  | none => exact iff_of_true rfl rfl
  | some t =>
    dsimp only
    -- a sheet of another type is reported as such
    cases t.as? i with
    | none => simp [Except.map]
    | some table => simp [Except.map]

/-- The store that serves a container answers as the container does. -/
theorem answersAs_serving (h : b.Indexed) : (serving b).AnswersAs b := by
  refine ⟨fun i name => ?_, table_serving_eq_sheetMissing_iff h, fun i => ?_,
    fun i r k => resolve_serving b i⟩
  · rw [table_serving]
    cases b.table i name with
    | error e => exact .error e
    | ok table => exact .ok table.mirrors_serving
  · rw [firstTable?_serving]
    cases b.firstTable? i with
    | none => exact .none
    | some table => exact .some table.mirrors_serving

/-- A container that was put together by inserting tables is taken over by a data store, and so is
one that was loaded or baked. The store then answers every query as the container does. It has for
every name and record type the same rows in the same order, or the same error; the same first table
of a record type; the same row for an id; and for a reference that is resolved to a place the row at
that place, if there is one. -/
theorem serve_answersAs (b : Container c) (h : b.Made) :
    ∃ s, serve b = (s, .ok ()) ∧ s.AnswersAs b := by
  have hindexed := h.inserted_of.indexed
  exact ⟨serving b, serve_eq hindexed, answersAs_serving hindexed⟩

end DataStore

/-- The baked quests are taken over, and their sheet is found. -/
theorem DataStore.serve_answersAs_quests : ∃ out store s,
    Game.questBaker.bake.run .empty = (.ok out, store) ∧ out.container.Made ∧
      DataStore.serve out.container = (s, .ok ()) ∧ s.AnswersAs out.container ∧
      ∀ i, s.table i "Quests" ≠ .error (.sheetMissing "Quests") := by
  obtain ⟨out, store, h⟩ := Game.exists_run_questBaker
  have hmade : out.container.Made := .baked Game.keepsKeys_questBaker h
  obtain ⟨s, hserve, hs⟩ := DataStore.serve_answersAs out.container hmade
  refine ⟨out, store, s, h, hmade, hserve, hs, fun i hmissing => ?_⟩
  obtain ⟨l, htables⟩ := Baker.tables_of_run h
  refine (hs.sheetMissing_iff i "Quests").mp hmissing ?_
  rw [Container.sheetNames, htables, Game.bakedSheets_questBaker]
  exact List.mem_singleton.mpr (Game.questBaker.name_ingested Game.questSheet).symm

/-- The rows of a bake have to keep their keys when they are linked. A data store refuses the baked
drafts, for both of them have one key. -/
theorem DataStore.not_served_drafts : ∃ out store,
    Game.draftBaker.bake.run .empty = (.ok out, store) ∧
      out.container.tables.toList.map AnyTable.keys = [["done", "done"]] ∧
      DataStore.serve out.container =
        (.empty Game.drafts, .error (.duplicateId "Drafts" "done")) := by
  obtain ⟨out, store, h⟩ := Game.exists_run_draftBaker
  obtain ⟨l, -, -, htables, -, hkeys⟩ := Game.drafts_of_run h
  refine ⟨out, store, h, ?_, Game.serve_of_run h⟩
  rw [htables, List.map_singleton, hkeys]

end TypedSheets
