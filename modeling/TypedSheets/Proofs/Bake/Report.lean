import TypedSheets.Proofs.Bake.Outcome
import TypedSheets.Proofs.Link.Missing
import TypedSheets.Proofs.Table.Linked

/-!
# What a bake reports about references

The report of a bake has an entry for each table of its container. Reference errors are put into the
entry of that name once all sheets are read, so each entry gets the errors of its own table: one for
every reference that is to something and is not resolved in the rows of the container.

## Main definitions

* `AnyTable.missingErrors` — what is missing in a table, row by row and leaf by leaf
* `Baker.entryOf` — the entry of a sheet before references are linked

## Main results

* `Baker.addSheets_induction` — what every sheet keeps, a bake keeps up to its end
* `Baker.linkTables_reports` — every entry gets the errors of its table
* `Table.arranges_mapReferences` — the errors of linking a table are what is missing in it
* `Baker.references_of_bake` — the reference errors of a bake are what is missing in its container
-/

namespace TypedSheets

variable {c : Catalog}

/-! ### One table -/

/-- The errors for what is missing in a table, row by row and leaf by leaf, with these keys for the
rows. -/
def AnyTable.missingErrors (t : AnyTable c) (keys : List String) : List (List ReferenceError) :=
  (keys.zip t.table.rows.toList).flatMap fun r =>
    ((c.type t.id).record.missingLeaves r.2).map
      (LeafMissing.errors fun path is => ⟨t.name, r.1, path, is⟩)

namespace Table

variable {t : TableType} (l : Linker)

/-- The errors of linking a table are those of its rows, in row order. -/
theorem errors_mapReferences (table : Table t) :
    (mapReferences l table).2 = table.rows.toList.flatMap fun row =>
      t.record.members.linkErrors l t.record.decl
        (fun path is => ⟨table.name, t.key row, path, is⟩) row := by
  rw [mapReferences, Array.toList_map, List.flatMap_map]
  exact List.flatMap_congr fun row _ => congrArg Prod.snd (linkRow_eq l table.name row)

/-- The errors of linking a table of JSON are what is missing in the linked table, under the keys
that its rows were read with. -/
theorem arranges_mapReferences (ht : t.record.members.Lawful)
    (hplain : t.record.members.PlainRows) {table : Table t} {naming : Naming}
    (hrows : ∀ row ∈ table.rows.toList, ∃ json raw, RawRow.ofJson json = .ok raw ∧
      t.record.read naming raw = .ok row) :
    Arranges (mapReferences l table).2
      ((table.keys.zip (mapReferences l table).1.rows.toList).flatMap fun r =>
        (t.record.missingLeaves r.2).map
          (LeafMissing.errors fun path is => ⟨table.name, r.1, path, is⟩)) := by
  rw [errors_mapReferences, rows_mapReferences, keys, List.zip_map', List.flatMap_map]
  refine arranges_flatMap fun row hrow => ?_
  obtain ⟨json, raw, hraw, hread⟩ := hrows row hrow
  exact t.record.members.arranges_linkErrors l t.record.decl _ ht.keys ht.converters ht.columns.2
    ht.names hplain hread (Members.unresolved_of_read hraw hread)

end Table

/-! ### All tables -/

namespace Baker

variable {b : Baker c} {s next : BakeState c} {store store' : ArtifactStore}

/-- What leaving out and adding a sheet keep, a bake keeps up to its last sheet. -/
theorem addSheets_induction {P : BakeState c → Prop} {ds : List (SheetDecl c)} {position : Nat}
    (hskip : ∀ (s : BakeState c) name, P s → P (skip s name))
    (hadd : ∀ (s next : BakeState c) d file kept, b.addSheet s d file kept = .ok next → P s →
      P next)
    (hs : P s) (hrun : (b.addSheets s position ds).run store = (.ok next, store')) : P next := by
  induction ds generalizing s position with
  | nil =>
    cases hrun
    exact hs
  | cons d rest ih =>
    obtain ⟨-, ⟨-, hrest⟩ | ⟨file, kept, s', -, -, hsheet, hrest⟩⟩ :=
      run_addSheets_cons_eq_ok_iff.mp hrun
    · exact ih (hskip s d.name hs) hrest
    · exact ih (hadd s s' d file kept hsheet hs) hrest

/-- The entry of a sheet in the report, before references are linked: it counts the rows, compares
their keys with the kept ones, and has the issues of the raw rows that are left out. -/
def entryOf (b : Baker c) (d : SheetDecl c) (file : String) (kept : List String) : SheetReport where
  name := d.name
  fileName := file
  rows := (b.ingested d).size
  created := (diffKeys kept (b.ingested d).keys).created.length
  updated := (diffKeys kept (b.ingested d).keys).updated.length
  removed := (diffKeys kept (b.ingested d).keys).removed.length
  issues := (Table.ingest (c.type d.id) d.name b.schema.naming (b.rawRows d.name)).2
  references := []

/-- A sheet that is added can be read, and gets an entry in the report. -/
theorem sheets_addSheet {d : SheetDecl c} {file : String} {kept : List String}
    (hadd : b.addSheet s d file kept = .ok next) : (∃ raws, b.source d.name = .ok raws) ∧
      next.report.sheets = s.report.sheets ++ [b.entryOf d file kept] := by
  rw [addSheet] at hadd
  split at hadd
  · cases hadd
  · next raws hsource =>
    have hraws : b.rawRows d.name = raws.getD [] := rawRows_of_source hsource
    refine ⟨⟨raws, hsource⟩, ?_⟩
    simp only [entryOf, ingested, hraws]
    dsimp only at hadd
    split at hadd
    · cases hadd
    · cases hadd
      rfl

/-- A sheet that is added gets an entry in the report and a table in the container. -/
theorem reports_addSheet {d : SheetDecl c} {file : String} {kept : List String}
    (hadd : b.addSheet s d file kept = .ok next)
    (h : s.report.sheets.map SheetReport.name = s.container.sheetNames) :
    next.report.sheets.map SheetReport.name = next.container.sheetNames := by
  have hname := b.name_ingested d
  have hinsert := (addSheet_eq_ok hadd).1
  have hnames : next.container.sheetNames = s.container.sheetNames ++ [d.name] := by
    rw [Container.insert] at hinsert
    split at hinsert
    · cases hinsert
    · rw [← Except.ok.inj hinsert, Container.sheetNames_push, hname]
  rw [hnames, (sheets_addSheet hadd).2, List.map_append, h]
  rfl

/-- At the last sheet the report has an entry for each table, in order. -/
theorem reports_of_run (hrun : (b.addSheets b.start 0 b.schema.sheets).run store = (.ok s, store)) :
    s.report.sheets.map SheetReport.name = s.container.sheetNames :=
  addSheets_induction (P := fun s => s.report.sheets.map SheetReport.name = s.container.sheetNames)
    (fun _ _ h => h) (fun _ _ _ _ _ hadd h => reports_addSheet hadd h) rfl hrun

theorem forall₂_zipWith_map {α β γ δ ν : Type} {R : γ → δ → Prop} {f : α → β → γ} {g : β → δ}
    {name : α → ν} {label : β → ν} {xs : List α} {ys : List β}
    (hnames : xs.map name = ys.map label)
    (h : ∀ x, ∀ y ∈ ys, name x = label y → R (f x y) (g y)) :
    List.Forall₂ R (List.zipWith f xs ys) (ys.map g) := by
  induction ys generalizing xs with
  | nil =>
    obtain rfl := List.map_eq_nil_iff.mp hnames
    exact .nil
  | cons y ys ih =>
    cases xs with
    | nil => cases hnames
    | cons x xs =>
      obtain ⟨hname, hothers⟩ := List.cons.inj hnames
      exact .cons (h x y List.mem_cons_self hname)
        (ih hothers fun a b hb => h a b (List.mem_cons_of_mem y hb))

theorem withReferences_append {name : String} {errors : List ReferenceError}
    {done rest : List SheetReport} {entry : SheetReport} (hname : entry.name = name)
    (hdone : name ∉ done.map SheetReport.name) :
    BakeReport.withReferences name errors (done ++ entry :: rest) =
      done ++ { entry with references := errors } :: rest := by
  induction done with
  | nil => simp [BakeReport.withReferences, hname]
  | cons e done ih =>
    rw [List.map_cons, List.mem_cons, not_or] at hdone
    have hne : ¬ (e.name == name) = true := by simpa using Ne.symm hdone.1
    rw [List.cons_append, BakeReport.withReferences, if_neg hne, ih hdone.2, List.cons_append]

/-- Every entry gets the errors of the table of its name. -/
theorem linkTables_reports (l : Linker) {entries : List SheetReport} {ts : List (AnyTable c)}
    (hnames : entries.map SheetReport.name = ts.map AnyTable.name)
    (hnodup : (ts.map AnyTable.name).Nodup) :
    (linkTables l entries ts).2 = List.zipWith
      (fun entry t => { entry with references := (t.table.mapReferences l).2 }) entries ts := by
  -- the entries in `done` have got their errors, and no table that is left has one of their names
  suffices h : ∀ done : List SheetReport,
      (∀ name ∈ ts.map AnyTable.name, name ∉ done.map SheetReport.name) →
      (linkTables l (done ++ entries) ts).2 = done ++ List.zipWith
        (fun entry t => { entry with references := (t.table.mapReferences l).2 }) entries ts from
    h [] fun _ _ => List.not_mem_nil
  induction ts generalizing entries with
  | nil =>
    obtain rfl := List.map_eq_nil_iff.mp hnames
    exact fun done _ => rfl
  | cons t rest ih =>
    cases entries with
    | nil => cases hnames
    | cons entry entries =>
      obtain ⟨hname, hothers⟩ := List.cons.inj hnames
      obtain ⟨hnew, hrest⟩ := List.nodup_cons.mp hnodup
      intro done hdone
      change (linkTables l (BakeReport.withReferences t.name (t.table.mapReferences l).2
        (done ++ entry :: entries)) rest).2 = _
      rw [withReferences_append hname (hdone t.name List.mem_cons_self)]
      have hnext := ih hothers hrest
        (done ++ [{ entry with references := (t.table.mapReferences l).2 }]) fun name hmem => by
          rw [List.map_append, List.mem_append, not_or]
          refine ⟨hdone name (List.mem_cons_of_mem _ hmem), ?_⟩
          rintro hlast
          rw [List.map_singleton, List.mem_singleton] at hlast
          exact hnew (hname ▸ hlast ▸ hmem)
      simpa using hnext

/-- The entries of a bake are those of its sheets, each with the errors of its own table. -/
theorem sheets_link_of_run
    (hrun : (b.addSheets b.start 0 b.schema.sheets).run store = (.ok s, store)) :
    (b.link s).report.sheets = List.zipWith
      (fun entry t => { entry with references :=
        (t.table.mapReferences (s.container.linker b.assets)).2 })
      s.report.sheets s.container.tables.toList :=
  linkTables_reports _ (reports_of_run hrun)
    (holds_of_run (A := fun _ _ => True) (fun _ => trivial) hrun).indexed.nodup

/-- The errors of linking the table of a sheet are what is missing in it afterwards. -/
theorem arranges_linked (hsource : b.source.FromJson) {d : SheetDecl c}
    (ht : (c.type d.id).record.members.Lawful) (hplain : (c.type d.id).record.members.PlainRows)
    (l : Linker) : Arranges ((b.ingested d).table.mapReferences l).2
      (((b.ingested d).linked l).missingErrors (b.ingested d).keys) := by
  have hrows : ∀ row ∈ (b.ingested d).table.rows.toList, ∃ json raw,
      RawRow.ofJson json = .ok raw ∧
        (c.type d.id).record.read b.schema.naming raw = .ok row := by
    intro row hrow
    obtain ⟨raw, hraw, hread⟩ := exists_of_mem_ingested (d := d) hrow
    obtain ⟨json, hjson⟩ := fromJson_rawRows hsource d.name raw hraw
    exact ⟨json, raw, hjson, hread⟩
  exact Table.arranges_mapReferences l ht hplain hrows

/-- The reference errors of a bake that succeeds are what is missing in its container. The report
has an entry for every sheet of the container, in the same order, and no other. The entry holds the
references in data members of the sheet's rows that are to something and are not resolved, each of
them once: row by row, and within a row leaf by leaf as the property tree has them. The error names
the sheet, the key that the row was read with, the path of the leaf, the indexes that lead to it,
and the key or asset that the reference is to. Within a leaf the order is that in which the leaf
prints.

A row keeps its key unless its id is computed from what references are resolved to. -/
theorem references_of_bake (hsource : b.source.FromJson)
    (htypes : ∀ d ∈ b.schema.sheets, (c.type d.id).record.members.Lawful ∧
      (c.type d.id).record.members.PlainRows) {out : BakeOutput c}
    (h : b.bake.run store = (.ok out, store')) :
    List.Forall₂ (fun (entry : SheetReport) (t : AnyTable c) => entry.name = t.name ∧
        ∃ d ∈ b.schema.sheets, d.name = t.name ∧ d.id = t.id ∧
          Arranges entry.references (t.missingErrors (b.ingested d).keys) ∧
          (b.ingested d).keys.length = t.size ∧
          ((c.type t.id).ResolutionFree → (b.ingested d).keys = t.keys))
      out.report.sheets out.container.tables.toList ∧
    ∀ t ∈ out.container.tables.toList, ∀ row ∈ t.table.rows.toList,
      ((c.type t.id).record.missingLeaves row).map LeafMissing.place =
        ((c.type t.id).record.properties.walk row).map sitePlace := by
  obtain ⟨s, hrun, -, rfl, -⟩ := run_bake_eq_ok_iff.mp h
  refine ⟨?_, fun t _ row _ => (c.type t.id).record.map_place_missingLeaves row⟩
  have hs := holds_of_run (A := fun _ _ => True) (fun _ => trivial) hrun
  have hnames := reports_of_run hrun
  -- entries and tables stand side by side, and each table is that of a sheet, linked
  rw [sheets_link_of_run hrun, link_container, Container.tables_linked]
  refine forall₂_zipWith_map hnames fun entry t ht hname => ?_
  rw [hs.tables_eq] at ht
  obtain ⟨p, hp, rfl⟩ := List.mem_map.mp ht
  obtain ⟨hlawful, hplain⟩ := htypes p.1 (mem_of_mem_sheetFiles hp)
  refine ⟨hname, p.1, mem_of_mem_sheetFiles hp, (b.name_ingested p.1).symm, rfl,
    arranges_linked hsource hlawful hplain _, ?_, fun hid => ?_⟩
  · rw [AnyTable.size_linked]
    exact Table.length_keys _
  · exact (keepsKeys_of_resolutionFree hsource hlawful hplain hid _).symm

end Baker

/-- The report of the bake of quests has one entry, with what is missing in the one sheet. -/
theorem Baker.references_of_bake_quests : ∃ out store,
    Game.questBaker.bake.run .empty = (.ok out, store) ∧ out.container.size = 1 ∧
      List.Forall₂ (fun (entry : SheetReport) (t : AnyTable Game.catalog) =>
        Arranges entry.references (t.missingErrors ["1", "2"])) out.report.sheets
          out.container.tables.toList := by
  obtain ⟨out, store, h⟩ := Game.exists_run_questBaker
  obtain ⟨l, htables⟩ := Baker.tables_of_run h
  obtain ⟨hreport, -⟩ := Baker.references_of_bake
    (SheetSource.fromJson_rowsOfJson Game.questJson)
    (List.forall_mem_singleton.mpr ⟨Game.lawful_quest, Game.plainRows_quest⟩) h
  refine ⟨out, store, h, ?_, hreport.imp fun entry t ht => ?_⟩
  · rw [Container.size, ← Array.length_toList, htables, Game.bakedSheets_questBaker]
    rfl
  · obtain ⟨-, d, hd, -, -, harranges, -⟩ := ht
    obtain rfl := List.mem_singleton.mp hd
    rwa [Game.keys_ingested_questSheet] at harranges

namespace Game

/-- The leaves of a draft are its title and its sequel. -/
theorem missingLeaves_draftRow (title sequel : SheetRef) :
    draft.record.missingLeaves (draftRow title sequel) =
      [⟨"Title", [], (TargetRef.mk "Draft" title).missing⟩,
        ⟨"Sequel", [], (TargetRef.mk "Draft" sequel).missing⟩] := by
  have htitle : (draft.record.decl.field (MemberType.decl ⟨"title", false, false⟩
      (.cell (.sheetRef "Draft")))).propertyName = "Title" := by decide +kernel
  have hsequel : (draft.record.decl.field (MemberType.decl ⟨"sequel", false, false⟩
      (.cell (.sheetRef "Draft")))).propertyName = "Sequel" := by decide +kernel
  rw [← htitle, ← hsequel]
  rfl

/-- In the baked drafts one sequel is missing. Its error names the draft by the title, which is the
key that it was read with. -/
theorem references_of_run {store store' : ArtifactStore} {out : BakeOutput drafts}
    (h : draftBaker.bake.run store = (.ok out, store')) :
    out.report.sheets.map SheetReport.references =
      [[.notFound ⟨"Drafts", "a", "Sequel", []⟩ "Draft" "c"]] := by
  obtain ⟨l, k, k', htables, hrows, -⟩ := drafts_of_run h
  obtain ⟨s, hrun, -, rfl, -⟩ := Baker.run_bake_eq_ok_iff.mp h
  have hs := Baker.holds_of_run (A := fun _ _ => True) (fun _ => trivial) hrun
  have hlinked : (draftBaker.ingested draftSheet).linked (s.container.linker draftBaker.assets) =
      (draftBaker.ingested draftSheet).linked l :=
    (List.cons.inj (hs.tables_link.symm.trans htables)).1
  have harranges := Baker.arranges_linked (SheetSource.fromJson_rowsOfJson draftJson)
    (b := draftBaker) (d := draftSheet) lawful_draft plainRows_draft
    (s.container.linker draftBaker.assets)
  have hleaves : ((draftBaker.ingested draftSheet).linked l).missingErrors ["a", "b"] =
      [("a", draftRow ⟨"a", some k⟩ ⟨"c", none⟩), ("b", draftRow ⟨"b", some k'⟩ .empty)].flatMap
        fun r => (draft.record.missingLeaves r.2).map
          (LeafMissing.errors fun path is => ⟨"Drafts", r.1, path, is⟩) := by
    rw [AnyTable.missingErrors, hrows, AnyTable.name_linked, Baker.name_ingested]
    rfl
  rw [hlinked, keys_ingested_draftSheet, hleaves] at harranges
  simp only [List.flatMap_cons, List.flatMap_nil, missingLeaves_draftRow] at harranges
  have herrors : ((draftBaker.ingested draftSheet).table.mapReferences
      (s.container.linker draftBaker.assets)).2 =
        [.notFound ⟨"Drafts", "a", "Sequel", []⟩ "Draft" "c"] := by
    simpa [TargetRef.missing, LeafMissing.errors, SheetRef.isEmpty, SheetRef.empty,
      Missing.error] using harranges.perm
  -- the report has one entry, as there is one sheet
  have hread : s.container.tables.toList = [draftBaker.ingested draftSheet] := hs.tables_eq
  have hnames := Baker.reports_of_run hrun
  rw [Container.sheetNames, hread] at hnames
  obtain ⟨entry, hentry, -⟩ := List.map_eq_singleton_iff.mp hnames
  rw [Baker.sheets_link_of_run hrun, hread, hentry]
  exact congrArg (fun errors => [errors]) herrors

end Game

/-- Where ids depend on what references are resolved to, an error names a key that no row of the
container has. -/
theorem Baker.references_of_bake_drafts : ∃ out store,
    Game.draftBaker.bake.run .empty = (.ok out, store) ∧ Game.draftBaker.source.FromJson ∧
      (∀ d ∈ Game.draftBaker.schema.sheets, (Game.drafts.type d.id).record.members.Lawful ∧
        (Game.drafts.type d.id).record.members.PlainRows) ∧
      out.report.sheets.map SheetReport.references =
        [[.notFound ⟨"Drafts", "a", "Sequel", []⟩ "Draft" "c"]] ∧
      out.container.tables.toList.map AnyTable.keys = [["done", "done"]] := by
  obtain ⟨out, store, h⟩ := Game.exists_run_draftBaker
  obtain ⟨l, -, -, htables, -, hkeys⟩ := Game.drafts_of_run h
  refine ⟨out, store, h, SheetSource.fromJson_rowsOfJson Game.draftJson,
    List.forall_mem_singleton.mpr ⟨Game.lawful_draft, Game.plainRows_draft⟩,
    Game.references_of_run h, ?_⟩
  rw [htables, List.map_singleton, hkeys]

end TypedSheets
