import TypedSheets.Container.Basic
import TypedSheets.Table.Data

/-!
# Data stores

A data store serves the tables of a container at run time, and follows resolved references.

* `AnyDataTable` — a data table together with its type
* `DataStore` — nothing, or the tables of a container
* `DataStore.table`, `DataStore.trySet`, `DataStore.resolve`
-/

namespace TypedSheets

variable {c : Catalog}

/-- A data table of some type of a catalog. -/
structure AnyDataTable (c : Catalog) where
  id : c.Id
  table : DataTable (c.type id)

namespace AnyDataTable

/-- The name of the record type. -/
def recordName (t : AnyDataTable c) : String := (c.type t.id).name

/-- The table as one of a type, if it has that type. -/
def as? (t : AnyDataTable c) (i : c.Id) : Option (DataTable (c.type i)) :=
  if h : t.id = i then some (h ▸ t.table) else none

end AnyDataTable

/-- The tables of a container at run time. -/
structure LoadedTables (c : Catalog) where
  /-- In the order of the container. -/
  tables : Array (AnyDataTable c)
  names : Std.HashMap String Nat

/-- The data tables of tables, in order; the first repeated id is an error. -/
def dataTables : List (AnyTable c) → Except TableError (List (AnyDataTable c))
  | [] => .ok []
  | t :: rest =>
    match DataTable.ofRows (c.type t.id) t.name t.table.rows with
    | .error e => .error e
    | .ok table =>
      match dataTables rest with
      | .error e => .error e
      | .ok tables => .ok (⟨t.id, table⟩ :: tables)

/-- The data table of a sheet of a container. -/
def Container.dataTable (b : Container c) (i : c.Id) (name : String) :
    Except TableError (DataTable (c.type i)) :=
  match b.table i name with
  | .error e => .error e
  | .ok table => DataTable.ofRows (c.type i) name table.rows

/-- A store that serves the tables of a container once it has one. -/
structure DataStore (c : Catalog) where
  loaded : Option (LoadedTables c)

namespace DataStore

/-- The store that serves nothing. -/
def empty (c : Catalog) : DataStore c := ⟨none⟩

/-- The positions of names, the first of which stands at `position`. -/
def positionsFrom (position : Nat) (found : Std.HashMap String Nat) :
    List String → Std.HashMap String Nat
  | [] => found
  | name :: rest => positionsFrom (position + 1) (found.insert name position) rest

/-- The store that serves a container. -/
def ofContainer (b : Container c) : Except TableError (DataStore c) :=
  match dataTables b.tables.toList with
  | .error e => .error e
  | .ok tables => .ok ⟨some ⟨tables.toArray, positionsFrom 0 ∅ b.sheetNames⟩⟩

/-- The store after it took over a container; a container that it refuses leaves it empty. -/
def serve (b : Container c) : DataStore c × Except TableError Unit :=
  match ofContainer b with
  | .ok store => (store, .ok ())
  | .error e => (empty c, .error e)

/-- Whether the store serves a container. -/
def isServing (s : DataStore c) : Bool := s.loaded.isSome

/-- The first table of a type. -/
def firstTable? (s : DataStore c) (i : c.Id) : Option (DataTable (c.type i)) :=
  s.loaded.bind fun l => l.tables.toList.findSome? fun t => t.as? i

/-- The tables, the position of a sheet among them and its table, as one of a type. -/
def locate (s : DataStore c) (i : c.Id) (name : String) :
    Except TableError (LoadedTables c × Nat × DataTable (c.type i)) :=
  match s.loaded with
  | none => .error .notInitialized
  | some l =>
    match l.names[name]? with
    | none => .error (.sheetMissing name)
    | some position =>
      match l.tables[position]? with
      | none => .error (.sheetMissing name)
      | some t =>
        match t.as? i with
        | some table => .ok (l, position, table)
        | none => .error (.typeMismatch name (c.type i).name t.recordName)

/-- The table of a sheet, as one of a type. -/
def table (s : DataStore c) (i : c.Id) (name : String) :
    Except TableError (DataTable (c.type i)) :=
  (s.locate i name).map fun r => r.2.2

/-- The store with a row replaced. -/
def trySet (s : DataStore c) (i : c.Id) (name : String) (id : (c.type i).id.El)
    (row : (c.type i).Row) : Except TableError (DataStore c) :=
  match s.locate i name with
  | .error e => .error e
  | .ok (l, position, table) =>
    match table.writable? with
    | .error e => .error e
    | .ok table =>
      match table.trySet id row with
      | .error e => .error e
      | .ok table => .ok ⟨some { l with tables := l.tables.setIfInBounds position ⟨i, table⟩ }⟩

/-- The row that a reference was resolved to, as one of a type. -/
def resolve (s : DataStore c) (i : c.Id) (r : SheetRef) : RowHandle (c.type i).Row :=
  match s.loaded, r.resolved with
  | some l, some k =>
    match (l.tables[k.sheet.toNat]?).bind fun t => t.as? i with
    | some table => table.byPosition k.row.toNat
    | none => .invalid
  | _, _ => .invalid

end DataStore

end TypedSheets
