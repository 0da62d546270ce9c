import TypedSheets.Proofs.Bake.Outcome
import TypedSheets.Proofs.Link.InPlace
import TypedSheets.Proofs.Source

/-!
# Tables with their references linked

Linking takes every leaf of a row apart and puts it together again: sets and maps are sorted anew,
arrays are measured, nested records are read from their cells. Of all this nothing shows. In a table
of raw rows that were made of JSON, linking changes what references are resolved to, and no more.

Linking passes over a leaf that it cannot read, and drops what it cannot write back. In a row that
was read neither happens: a leaf prints to something that reads back with its references replaced,
and the leaves before it have not touched it. So every leaf is read and written when its turn comes.

Linking visits every place of a row that may hold a reference, and what it puts there is kept. So
after a bake no reference is left that was not looked up: not in a nested record, not in a row of
rows, not in a key of a map.

## Main definitions

* `Linker.WritesLeaf` — a leaf that is read and written back
* `Linker.WritesBack` — leaves that are read and written back, each in its turn

## Main results

* `Linker.writesBack_append` — leaves one after the other
* `Members.writesBack_nodes` — all leaves of the members of a row that was read
* `Table.writes_of_read` — linking a row that was read never fails at a leaf
* `Table.erased_mapReferences` — the rows are the same, but for what references are resolved to
* `Table.mapReferences_resolves_only` — all that linking a table leaves as it was
* `Baker.everyRef_of_bake` — after a bake every reference in every row is linked
-/

namespace TypedSheets

open PropertyNode (Site liftSite)

theorem toOption_eq_some_iff {ε α : Type} {r : Except ε α} {x : α} :
    r.toOption = some x ↔ r = .ok x := by
  cases r <;> simp [Except.toOption]

namespace Linker

variable {ρ α : Type} (l : Linker) (place : String → List Nat → ReferenceSite)

/-- The leaf can be read, and its value can be written back with its references replaced. -/
def WritesLeaf (row : ρ) (s : Site ρ) : Prop :=
  ∃ v next, (s.1.get row s.2).toOption = some v ∧
    (s.1.set row s.2 (v.mapRefs l.refMap)).toOption = some next

/-- Every leaf can be read and written back when its turn comes: in the row that linking the leaves
before it leaves behind. -/
def WritesBack (row : ρ) : List (Site ρ) → Prop
  | [] => True
  | s :: rest => l.WritesLeaf row s ∧ WritesBack (l.linkLeaf place row s).1 rest

theorem writesBack_append (row : ρ) (xs ys : List (Site ρ)) :
    l.WritesBack place row (xs ++ ys) ↔
      l.WritesBack place row xs ∧ l.WritesBack place (l.linkLeaves place row xs).1 ys := by
  induction xs generalizing row with
  | nil => simp [WritesBack, linkLeaves]
  | cons s rest ih => simp [WritesBack, linkLeaves, ih, and_assoc]

theorem writesBack_singleton {row : ρ} {s : Site ρ} (h : l.WritesLeaf row s) :
    l.WritesBack place row [s] :=
  ⟨h, trivial⟩

/-! ### Elements -/

theorem writesLeaf_lift {e : Elements ρ α} {row : ρ} {x : α} {i : Nat}
    (hx : (e.items row)[i]? = some x) (parent : String) {s : Site α} (h : l.WritesLeaf x s) :
    l.WritesLeaf row (liftSite e parent i s) := by
  obtain ⟨v, next, hget, hset⟩ := h
  refine ⟨v, e.set row i next, ?_, ?_⟩
  · rw [liftSite, PropertyNode.get_lift hx, hget]
  · rw [liftSite, PropertyNode.set_lift hx, hset]
    rfl

theorem writesBack_lift {e : Elements ρ α} (he : e.Lawful) {row : ρ} {x : α} {i : Nat}
    (hx : (e.items row)[i]? = some x) (parent : String) {sites : List (Site α)}
    (h : l.WritesBack (fun path is => place (parent ++ "." ++ path) (i :: is)) x sites) :
    l.WritesBack place row (sites.map (liftSite e parent i)) := by
  induction sites generalizing row x with
  | nil => trivial
  | cons s rest ih =>
    refine ⟨l.writesLeaf_lift hx parent h.1, ?_⟩
    rw [l.linkLeaf_lift place he hx parent s]
    -- the element is now the one in which the first leaf is linked
    refine ih ?_ h.2
    have hi : i < (e.items row).length := (List.getElem?_eq_some_iff.mp hx).1
    rw [he.items_set, List.getElem?_set_self hi]

section Elements

variable {form : RowsForm} {len : Lens ρ (form.Holder α)} (hlen : len.Lawful) {parent : String}
  {sites : α → List (Site α)} {F : α → α} {E : (Nat → α → List ReferenceError)}
  (hsites : ∀ i x,
    l.linkLeaves (fun path is => place (parent ++ "." ++ path) (i :: is)) x (sites x) =
      (F x, E i x))

include hlen hsites

theorem writesBack_elements_from (done todo : List α) (row : ρ)
    (hrow : form.items (len.get row) = done ++ todo)
    (hwrites : ∀ i, ∀ x ∈ todo,
      l.WritesBack (fun path is => place (parent ++ "." ++ path) (i :: is)) x (sites x)) :
    l.WritesBack place row ((todo.zipIdx done.length).flatMap fun p =>
      (sites p.1).map (liftSite (Lens.elements form len) parent p.2)) := by
  -- the elements in `done` are linked already, and positions count from behind them
  induction todo generalizing done row with
  | nil => trivial
  | cons x rest ih =>
    have hitems : ((Lens.elements form len).items row)[done.length]? = some x := by
      change (form.items (len.get row))[done.length]? = some x
      simp [hrow]
    have hnext : form.items (len.get ((Lens.elements form len).set row done.length (F x))) =
        (done ++ [F x]) ++ rest := by
      simp [Lens.elements, hlen.get_set, hrow]
    have helement := Lens.elements_lawful hlen
    rw [List.zipIdx_cons, List.flatMap_cons, writesBack_append]
    constructor
    · exact l.writesBack_lift place helement hitems parent (hwrites _ x List.mem_cons_self)
    · have hrest := ih (done ++ [F x]) _ hnext fun i y hy => hwrites i y (List.mem_cons_of_mem x hy)
      rw [List.length_append, List.length_singleton] at hrest
      rw [l.linkLeaves_lift place helement hitems parent, hsites]
      exact hrest

/-- The leaves of all elements of a list are written back if those of each element are. -/
theorem writesBack_elements (row : ρ)
    (hwrites : ∀ i, ∀ x ∈ form.items (len.get row),
      l.WritesBack (fun path is => place (parent ++ "." ++ path) (i :: is)) x (sites x)) :
    l.WritesBack place row ((form.items (len.get row)).zipIdx.flatMap fun p =>
      (sites p.1).map (liftSite (Lens.elements form len) parent p.2)) :=
  l.writesBack_elements_from place hlen hsites [] _ row rfl hwrites

end Elements

/-! ### Members -/

/-- The leaf of a part is written back if the part reads back from what it prints to. -/
theorem writesLeaf_cell (d : FieldDescriptor) (print : α → Value)
    (read : Value → Except CellError α) (len : Lens ρ α) (row : ρ) {y : α}
    (h : read ((print (len.get row)).mapRefs l.refMap) = .ok y) :
    l.WritesLeaf row (.leaf d (fun row => print (len.get row))
      (fun row v => (read v).map (len.set row)), []) := by
  refine ⟨print (len.get row), len.set row y, rfl, ?_⟩
  change (((read ((print (len.get row)).mapRefs l.refMap)).map (len.set row)).mapError _).toOption
    = _
  rw [h]
  rfl

end Linker

section Nodes

variable (l : Linker)

mutual

/-- The leaves of a member that was read are written back. -/
theorem MemberType.writesBack_nodes {ρ : Type} (place : String → List Nat → ReferenceSite)
    (d : RecordDecl) (info : MemberInfo) : (t : MemberType) → {len : Lens ρ t.El} →
    len.Lawful → {row₀ row : ρ} → len.get row₀ = len.get row → {name : String} → {n : Naming} →
    {raw : RawRow} → t.All (fun _ => True) MemberType.Reverts →
    t.All CellType.HasDistinctColumns MemberType.HasDistinctColumns →
    t.All (fun _ => True) MemberType.HasPlainRows → t.read name n raw = .ok (len.get row) →
    l.WritesBack place row (referenceLeaves row₀ (t.nodes d info len))
  | .cell t, len, hlen, row₀, row, _, _, _, _, hr, hd, _, h => by
    rw [MemberType.nodes, referenceLeaves_leaf]
    split
    · have hread := t.read_print_mapRefs l.refMap .pascal hr.2 hd.2 (mapError_eq_ok_iff.mp h)
      exact l.writesBack_singleton place
        (l.writesLeaf_cell _ (t.print .pascal) (t.read .pascal) len row hread)
    · trivial
  | .rows _ _ _ (some _), _, _, _, _, _, _, _, _, _, _, hp, _ => nomatch hp.1
  | .rows form head ms none, len, hlen, row₀, row, hsame, _, _, _, hr, hd, hp, h => by
    rw [MemberType.nodes, referenceLeaves_vertical]
    have hitems : (Lens.elements form len).items row₀ = form.items (len.get row) :=
      congrArg form.items hsame
    rw [hitems]
    refine l.writesBack_elements place hlen
      (fun i x => ms.linkLeaves_nodes l _ (head.decl ms) Lens.whole_lawful rfl) row ?_
    intro i x hx
    obtain ⟨_, _, hread⟩ := form.exists_of_mem_read (mapError_eq_ok_iff.mp h) hx
    obtain ⟨_, _, hread⟩ := Value.partClosed_true.of_readRecord trivial hread
    exact ms.writesBack_nodes _ (head.decl ms) Lens.whole_lawful rfl hr.2 hd.2 hp.2 hread
  | .converted c, len, hlen, row₀, row, _, _, _, _, hr, _, _, _ => by
    rw [MemberType.nodes, referenceLeaves_leaf]
    split
    · -- what a converter prints holds no references, so it reads back as it is
      have hread : c.read ((c.print (len.get row)).mapRefs l.refMap) = .ok (len.get row) := by
        change c.read ((c.input.print (c.revert (len.get row))).mapRefs l.refMap) = _
        rw [c.input.mapRefs_print]
        exact hr (len.get row)
      exact l.writesBack_singleton place
        (l.writesLeaf_cell _ c.print c.read len row hread)
    · trivial
  | .ignored _, _, _, row₀, _, _, _, _, _, _, _, _, _ => by
    rw [MemberType.nodes, referenceLeaves_nil]
    trivial

/-- The leaves of members that were read are written back. -/
theorem Members.writesBack_nodes {ρ : Type} (place : String → List Nat → ReferenceSite)
    (d : RecordDecl) : (ms : Members) → {len : Lens ρ ms.El} → len.Lawful → {row₀ row : ρ} →
    len.get row₀ = len.get row → {n : Naming} → {raw : RawRow} → ms.Reverting →
    ms.All CellType.HasDistinctColumns MemberType.HasDistinctColumns → ms.PlainRows →
    ms.read n raw = .ok (len.get row) →
    l.WritesBack place row (referenceLeaves row₀ (ms.nodes d len))
  | .nil, _, _, row₀, _, _, _, _, _, _, _, _ => by
    rw [Members.nodes, referenceLeaves_nil]
    trivial
  | .cons info t rest, len, hlen, row₀, row, hsame, _, _, hr, hd, hp, h => by
    obtain ⟨hfirst, hothers⟩ := Members.read_cons_eq_ok h
    have hlinked := t.linkLeaves_nodes l place d info hlen.first (congrArg Prod.fst hsame)
    -- the first member does not change what the others are
    have hkept := Lens.second_get_first_set hlen row (t.relinked l d info (len.get row).1)
    rw [Members.nodes, referenceLeaves_append, Linker.writesBack_append, hlinked]
    exact ⟨t.writesBack_nodes place d info hlen.first (congrArg Prod.fst hsame) hr.1 hd.1 hp.1
        hfirst,
      rest.writesBack_nodes place d hlen.second ((congrArg Prod.snd hsame).trans hkept.symm) hr.2
        hd.2 hp.2 ((congrArg Except.ok hkept.symm).subst hothers)⟩

end

end Nodes

/-! ### Rows -/

namespace Linker

variable {ρ : Type} (l : Linker) (place : String → List Nat → ReferenceSite)

/-- Of leaves that are written back, each one is, in the row that those before it leave behind. -/
theorem WritesBack.writesLeaf {row : ρ} {before after : List (Site ρ)} {s : Site ρ}
    (h : l.WritesBack place row (before ++ s :: after)) :
    l.WritesLeaf (l.linkLeaves place row before).1 s :=
  ((l.writesBack_append place row before (s :: after)).mp h).2.1

end Linker

namespace Table

variable {t : TableType}

/-- At every leaf of a row that was read, linking reads a value and writes back what it makes of
it. -/
theorem writes_of_read (hr : t.record.members.Reverting) (hd : t.record.members.DistinctColumns)
    (hp : t.record.members.PlainRows) (l : Linker) (sheet : String) {n : Naming} {raw : RawRow}
    {row : t.Row} (h : t.record.read n raw = .ok row) {before after : List (Site t.Row)}
    {s : Site t.Row}
    (hsites : referenceSites t.record.properties row = before ++ s :: after) :
    ∃ v next, s.1.get (linkSites l sheet (t.key row) row before).1 s.2 = .ok v ∧
      s.1.set (linkSites l sheet (t.key row) row before).1 s.2
        (l.link ⟨sheet, t.key row, s.1.path, s.2⟩ v).value = .ok next := by
  have hwrites : l.WritesBack (fun path is => ⟨sheet, t.key row, path, is⟩) row
      (referenceSites t.record.properties row) := by
    rw [referenceSites_eq]
    exact t.record.members.writesBack_nodes l _ t.record.decl Lens.whole_lawful rfl hr hd.2 hp h
  rw [hsites] at hwrites
  obtain ⟨v, next, hget, hset⟩ := hwrites.writesLeaf
  rw [linkSites_eq]
  refine ⟨v, next, toOption_eq_some_iff.mp hget, ?_⟩
  rw [Linker.link_value]
  exact toOption_eq_some_iff.mp hset

section Ingested

variable (hkeys : t.record.members.StaticKeys) (hconverters : t.record.members.Reverting)
  (hcolumns : t.record.members.DistinctColumns) (hplain : t.record.members.PlainRows) (l : Linker)

include hkeys hconverters hcolumns hplain

/-- A row of JSON is linked to a row that differs in what its references are resolved to only. -/
theorem erased_relinked_of_read {n : Naming} {json : Json} {raw : RawRow} {row : t.Row}
    (hraw : RawRow.ofJson json = .ok raw) (hread : t.record.read n raw = .ok row) :
    t.record.members.erased (t.record.members.relinked l t.record.decl row) =
      t.record.members.erased row :=
  t.record.members.erased_relinked l t.record.decl hkeys hconverters hcolumns.2 hplain hread
    (Members.unresolved_of_read hraw hread)

/-- The rows of a table of JSON stay, but for what their references are resolved to. -/
theorem erased_mapReferences {name : String} {naming : Naming} {raws : List RawRow}
    (hraws : ∀ raw ∈ raws, ∃ json, RawRow.ofJson json = .ok raw) {table : Table t}
    (htable : table = (ingest t name naming raws).1) :
    (mapReferences l table).1.rows.toList.map t.record.members.erased =
      table.rows.toList.map t.record.members.erased := by
  rw [rows_mapReferences]
  refine map_map_of_forall fun row hrow => ?_
  obtain ⟨-, raw, hraw, hread⟩ := exists_of_mem_ingest (htable ▸ hrow)
  obtain ⟨json, hjson⟩ := hraws raw hraw
  exact erased_relinked_of_read hkeys hconverters hcolumns hplain l hjson hread

end Ingested

/-- Rows that differ in what their references are resolved to only have the same ids. -/
theorem map_getId_of_erased (hid : t.ResolutionFree) {xs ys : List t.Row}
    (h : xs.map t.record.members.erased = ys.map t.record.members.erased) :
    xs.map t.getId = ys.map t.getId := by
  induction xs generalizing ys with
  | nil =>
    obtain rfl := List.map_eq_nil_iff.mp h.symm
    rfl
  | cons x xs ih =>
    cases ys with
    | nil => cases h
    | cons y ys =>
      obtain ⟨hfirst, hothers⟩ := List.cons.inj h
      rw [List.map_cons, List.map_cons, hid x y hfirst, ih hothers]

theorem keys_of_map_getId {table table' : Table t}
    (h : table.rows.toList.map t.getId = table'.rows.toList.map t.getId) :
    table.keys = table'.keys := by
  have hkeys := congrArg (List.map t.id.key) h
  rwa [List.map_map, List.map_map] at hkeys

/-- Linking the table of raw rows that were made of JSON changes what references are resolved to,
and nothing else. Without this the rows are the same, in the same order, so that no collection loses
an element and no map a key; ids, keys and the index of keys stay. No leaf is passed over: in its
turn each one is read, and what linking makes of it is written back.

Converters have to read back what they print, and no vertical member has one, members of a record
need columns of their own, and an id may not depend on what references are resolved to. -/
theorem mapReferences_resolves_only (hkeys : t.record.members.StaticKeys)
    (hconverters : t.record.members.Reverting) (hcolumns : t.record.members.DistinctColumns)
    (hplain : t.record.members.PlainRows) (hid : t.ResolutionFree) (name : String)
    (naming : Naming) {raws : List RawRow}
    (hraws : ∀ raw ∈ raws, ∃ json, RawRow.ofJson json = .ok raw) (l : Linker)
    {table linked : Table t} {issues : List RowIssue} {errors : List ReferenceError}
    (htable : ingest t name naming raws = (table, issues))
    (hlinked : mapReferences l table = (linked, errors)) :
    linked.rows.toList.map t.record.members.erased =
        table.rows.toList.map t.record.members.erased ∧
      linked.name = table.name ∧ linked.size = table.size ∧
      linked.rows.toList.map t.getId = table.rows.toList.map t.getId ∧
      linked.keys = table.keys ∧ linked.index = table.index ∧
      ∀ row ∈ table.rows.toList, ∀ before s after,
        referenceSites t.record.properties row = before ++ s :: after →
          ∃ v next, s.1.get (linkSites l table.name (t.key row) row before).1 s.2 = .ok v ∧
            s.1.set (linkSites l table.name (t.key row) row before).1 s.2
              (l.link ⟨table.name, t.key row, s.1.path, s.2⟩ v).value = .ok next := by
  have hfirst : table = (ingest t name naming raws).1 := by rw [htable]
  obtain rfl : linked = (mapReferences l table).1 := by rw [hlinked]
  have herased := erased_mapReferences hkeys hconverters hcolumns hplain l hraws hfirst
  -- ids, and so keys, are told from the rows without what references are resolved to
  have hids := map_getId_of_erased hid herased
  refine ⟨herased, rfl, size_mapReferences l table, hids, keys_of_map_getId hids, rfl, ?_⟩
  intro row hrow before s after hsites
  obtain ⟨-, raw, -, hread⟩ := exists_of_mem_ingest (hfirst ▸ hrow)
  exact writes_of_read hconverters hcolumns hplain l table.name hread hsites

end Table

/-- The quests stay the same two quests under a linker that finds the first row for every key. -/
theorem Table.mapReferences_resolves_only_quests : ∃ table issues linked errors,
    Table.ingest Game.quest "Quests" .pascal Game.questRaws = (table, issues) ∧
      Table.mapReferences ⟨fun _ _ => RowKey.of? 0 0, .none⟩ table = (linked, errors) ∧
      linked.keys = ["1", "2"] ∧ linked.rows.toList.map Game.quest.record.members.erased =
        table.rows.toList.map Game.quest.record.members.erased := by
  cases htable : Table.ingest Game.quest "Quests" .pascal Game.questRaws with
  | mk table issues =>
    cases hlinked : Table.mapReferences ⟨fun _ _ => RowKey.of? 0 0, .none⟩ table with
    | mk linked errors =>
      have hraws : ∀ raw ∈ Game.questRaws, ∃ json, RawRow.ofJson json = .ok raw :=
        SheetSource.fromJson_rowsOfJson Game.questJson "Quests" Game.questRaws rfl
      obtain ⟨herased, -, -, -, hkeys, -⟩ := Table.mapReferences_resolves_only
        Game.lawful_quest.keys Game.lawful_quest.converters Game.lawful_quest.columns
        Game.plainRows_quest Game.plainId_quest.resolutionFree "Quests" .pascal hraws _ htable
        hlinked
      refine ⟨table, issues, linked, errors, rfl, hlinked, hkeys.trans ?_, herased⟩
      have hfirst : (Table.ingest Game.quest "Quests" .pascal Game.questRaws).1 = table := by
        rw [htable]
      have hrows : table.rows.toList = Game.questRows := by
        rw [← hfirst]
        exact Table.rows_ingest (Game.rawRows_questBaker ▸ Game.forall₂_questRows)
          Game.nodup_questRows
      rw [Table.keys, hrows, Game.keys_questRows]

/-- The marks on the plaques of a hall. -/
def Game.marks (row : Game.hall.Row) : List Bool :=
  row.2.1.val.map fun (plaque : Game.plaque.Row) => plaque.1.2.1

/-- Vertical members that have a converter have to be left out. The cells of a hall come from JSON,
and all other conditions are met, but linking reads the pointer of its plaque from the cells that a
pointer prints to, and the mark is in none of them. -/
theorem Table.mapReferences_resets_hall :
    let table := (ingest Game.hall "Halls" .pascal [Game.northCells]).1
    let linked := (mapReferences ⟨fun _ _ => RowKey.of? 0 0, .none⟩ table).1
    Game.hall.record.decl.extract = .ok Game.hall.record.decl.schema ∧
      Game.hall.record.members.StaticKeys ∧ Game.hall.record.members.Reverting ∧
      Game.hall.record.members.DistinctColumns ∧ Game.hall.ResolutionFree ∧
      RawRow.ofJson (.object [("Id", .string "north"), ("Plaques", .string "+knight")]) =
        .ok Game.northCells ∧
      table.rows.toList.map Game.marks = [[true]] ∧ linked.rows.toList.map Game.marks = [[false]] ∧
      linked.rows.toList.map Game.hall.record.members.erased ≠
        table.rows.toList.map Game.hall.record.members.erased := by
  intro table linked
  have hid : Game.hall.ResolutionFree :=
    TableType.PlainId.resolutionFree fun _ _ h => h.1 trivial
  have hrows : table.rows.toList = [Game.northHall] :=
    Table.rows_ingest (.cons ⟨Game.read_northCells, by decide +kernel⟩ .nil)
      (List.nodup_singleton _)
  refine ⟨Game.extract_hall, by decide, Game.reverting_hall, by decide +kernel, hid, rfl, ?_, ?_,
    fun h => ?_⟩
  · rw [hrows]
    rfl
  · rw [rows_mapReferences, hrows]
    decide +kernel
  · -- a mark is no reference, so it shows without what references are resolved to
    have hmarks := congrArg (List.map Game.marks) h
    rw [rows_mapReferences, hrows] at hmarks
    revert hmarks
    decide +kernel

end TypedSheets

/-! ## The references of a baked container -/

namespace TypedSheets

variable {c : Catalog}

namespace Baker

variable {b : Baker c}

/-- The raw rows of a sheet are made of JSON if all of the source are. -/
theorem fromJson_rawRows (hsource : b.source.FromJson) (name : String) :
    ∀ raw ∈ b.rawRows name, ∃ json, RawRow.ofJson json = .ok raw := by
  intro raw hraw
  obtain ⟨raws, hraws, hmem⟩ := exists_of_mem_rawRows hraw
  exact hsource name raws hraws raw hmem

/-- Rows whose ids do not depend on what references are resolved to keep the keys that they were
read with. -/
theorem keepsKeys_of_resolutionFree (hsource : b.source.FromJson) {d : SheetDecl c}
    (ht : (c.type d.id).record.members.Lawful) (hplain : (c.type d.id).record.members.PlainRows)
    (hid : (c.type d.id).ResolutionFree) : (b.ingested d).KeepsKeys := by
  intro l
  have htable : (b.ingested d).table =
    (Table.ingest (c.type d.id) d.name b.schema.naming (b.rawRows d.name)).1 := rfl
  have herased := Table.erased_mapReferences ht.keys ht.converters ht.columns hplain l
    (fromJson_rawRows hsource d.name) htable
  exact Table.keys_of_map_getId (Table.map_getId_of_erased hid herased)

/-- After a bake that succeeds, every reference in a data member without a converter of a row is
linked, wherever in the member it is held. A reference to a row is resolved exactly if a sheet of
its record type has a row with its key, and then to the row of that key in the first such sheet; one
without a key is unresolved. A reference to an asset has the handle that the resolver gives for it.

The rows have to keep their keys when they are linked. -/
theorem everyRef_of_bake (hsource : b.source.FromJson)
    (htypes : ∀ d ∈ b.schema.sheets, (c.type d.id).record.members.Lawful) (hkeys : b.KeepsKeys)
    {store store' : ArtifactStore} {out : BakeOutput c}
    (h : b.bake.run store = (.ok out, store')) :
    ∀ t ∈ out.container.tables.toList, ∀ row ∈ t.table.rows.toList,
      (c.type t.id).record.members.EveryUnconvertedRef out.container.LinksRow
        (LinksAsset b.assets) row := by
  obtain ⟨s, hrun, -, rfl, -⟩ := run_bake_eq_ok_iff.mp h
  have hs := holds_of_run (A := fun _ _ => True) (fun _ => trivial) hrun
  rw [hs.tables_link, link_container]
  intro t ht row hrow
  obtain ⟨p, hp, rfl⟩ := List.mem_map.mp ht
  obtain ⟨row, -, rfl, raw, hraw, hread⟩ := exists_of_mem_linked hrow
  -- the cells of the row were made from JSON, so they hold no reference that is resolved
  have hlawful := htypes p.1 (mem_of_mem_sheetFiles hp)
  exact Container.everyRef_linked hs.indexed (hs.keepsKeys hkeys) hlawful _
    (fromJson_rawRows hsource p.1.name raw hraw) hread

end Baker

/-- In the baked sheet of quests every reference is linked, and there is a quest to refer to. -/
theorem Baker.everyRef_of_bake_quests : ∃ out store,
    Game.questBaker.bake.run .empty = (.ok out, store) ∧ out.container.HasKey "Quest" "1" ∧
      ∀ t ∈ out.container.tables.toList, ∀ row ∈ t.table.rows.toList,
        (Game.catalog.type t.id).record.members.EveryUnconvertedRef out.container.LinksRow
          (LinksAsset .none) row := by
  obtain ⟨out, store, h⟩ := Game.exists_run_questBaker
  refine ⟨out, store, h, ?_, Baker.everyRef_of_bake
    (SheetSource.fromJson_rowsOfJson Game.questJson) Game.lawful_questSheets
    Game.keepsKeys_questBaker h⟩
  obtain ⟨l, htables⟩ := Baker.tables_of_run h
  rw [Game.bakedSheets_questBaker] at htables
  refine ⟨(Game.questBaker.ingested Game.questSheet).linked l, by simp [htables], rfl, ?_⟩
  rw [AnyTable.keys_linked (t := Game.questBaker.ingested Game.questSheet)
    Game.resolutionBlind_quest, Game.keys_ingested_questSheet]
  exact List.mem_cons_self

/-- Where ids depend on what references are resolved to, it is not enough that sources come from
JSON and records are such that their rows are read back. The first draft that is baked refers to
itself by its title, and this reference is resolved, but no draft has the title as its id any
more. -/
theorem Baker.not_everyRef_of_bake_drafts : ∃ out store,
    Game.draftBaker.bake.run .empty = (.ok out, store) ∧ Game.draftBaker.source.FromJson ∧
      (∀ d ∈ Game.draftBaker.schema.sheets, (Game.drafts.type d.id).record.members.Lawful) ∧
      ¬ out.container.HasKey "Draft" "a" ∧
      ∃ t ∈ out.container.tables.toList, ∃ row ∈ t.table.rows.toList,
        ¬ (Game.drafts.type t.id).record.members.EveryUnconvertedRef out.container.LinksRow
          (LinksAsset Game.draftBaker.assets) row := by
  obtain ⟨out, store, h⟩ := Game.exists_run_draftBaker
  obtain ⟨l, k, k', htables, hrows, hkeys⟩ := Game.drafts_of_run h
  have hkey : ¬ out.container.HasKey "Draft" "a" := by
    rintro ⟨t, ht, -, hkey⟩
    rw [htables] at ht
    obtain rfl := List.mem_singleton.mp ht
    rw [hkeys] at hkey
    exact absurd hkey (by decide)
  refine ⟨out, store, h, SheetSource.fromJson_rowsOfJson Game.draftJson,
    List.forall_mem_singleton.mpr Game.lawful_draft, hkey,
    (Game.draftBaker.ingested Game.draftSheet).linked l, htables ▸ List.mem_singleton_self _,
    Game.draftRow ⟨"a", some k⟩ ⟨"c", none⟩, hrows ▸ List.mem_cons_self, fun hrefs => hkey ?_⟩
  -- the reference by title comes first in the row
  have htitle : out.container.LinksRow ⟨"Draft", ⟨"a", some k⟩⟩ := hrefs.1
  exact (htitle.resolved_iff (by decide : "a" ≠ "")).mp rfl

end TypedSheets
