import TypedSheets.Proofs.Bake.Report
import TypedSheets.Proofs.Bake.Save
import TypedSheets.Proofs.Table.Ingest

/-!
# What a bake counts

The entry of a sheet counts its rows, and of their keys those that are new, those that were kept
before, and the kept ones that are gone. The counts add up, since no key is there twice: each raw
row is a row or has an issue, each row is created or updated, and what the store keeps of the sheet
after the bake is what it kept before, without what is removed and with what is created.

## Main definitions

* `SheetReport.Of` — the entry of a sheet that was compared with the kept keys
* `SheetReport.Accounts` — an entry says what a bake did with a sheet

## Main results

* `diffKeys_eq` — a comparison sorts keys into new, kept and gone ones
* `length_add_length_gone` — what is there, and what is new and gone
* `Baker.reports_of_run_addSheets` — at the last sheet there is an entry for each sheet
* `Baker.counts_of_bake` — the entries of a bake account for its sheets
-/

namespace TypedSheets

variable {c : Catalog}

/-! ### Keys that are compared -/

section Keys

variable {left current : List String}

/-- Keys without repetition are compared: those of now are new or were kept, and the kept ones that
are not there now are gone. -/
theorem diffKeys_eq (hleft : left.Nodup) (hcurrent : current.Nodup) :
    diffKeys left current = ⟨current.filter (· ∉ left), current.filter (· ∈ left),
      left.filter (· ∉ current)⟩ := by
  induction current generalizing left with
  | nil => simp [diffKeys]
  | cons first rest ih =>
    obtain ⟨hfirst, hrest⟩ := List.nodup_cons.mp hcurrent
    rw [diffKeys]
    split
    · next hmem =>
      have hkept : first ∈ left := List.contains_iff_mem.mp hmem
      -- using up the first key makes no difference to the others
      have hothers : ∀ key ∈ rest, (key ∈ left.erase first ↔ key ∈ left) := fun key hkey =>
        List.mem_erase_of_ne (ne_of_mem_of_not_mem hkey hfirst)
      have hcreated : rest.filter (· ∉ left.erase first) = rest.filter (· ∉ left) :=
        List.filter_congr fun key hkey => by simp [hothers key hkey]
      have hupdated : rest.filter (· ∈ left.erase first) = rest.filter (· ∈ left) :=
        List.filter_congr fun key hkey => by simp [hothers key hkey]
      have hremoved : (left.erase first).filter (· ∉ rest) = left.filter (· ∉ first :: rest) := by
        rw [hleft.erase_eq_filter, List.filter_filter]
        refine List.filter_congr fun key _ => ?_
        by_cases hkey : key = first <;> simp [hkey]
      simp only [ih (hleft.erase first) hrest, hcreated, hupdated, hremoved]
      simp [hkept]
    · next hmem =>
      have hnew : first ∉ left := fun h => hmem (List.contains_iff_mem.mpr h)
      have hremoved : left.filter (· ∉ rest) = left.filter (· ∉ first :: rest) :=
        List.filter_congr fun key hkey => by
          simp [ne_of_mem_of_not_mem hkey hnew]
      simp only [ih hleft hrest, hremoved]
      simp [hnew]

/-- Keys are among others or not. -/
theorem length_filter_mem_add (current left : List String) :
    (current.filter (· ∈ left)).length + (current.filter (· ∉ left)).length = current.length := by
  simpa using (List.length_eq_length_filter_add (l := current) fun key => decide (key ∈ left)).symm

/-- Of two lists of keys without repetition, each is the other one without what is only there and
with what is only here. -/
theorem length_add_length_gone (hleft : left.Nodup) (hcurrent : current.Nodup) :
    current.length + (left.filter (· ∉ current)).length =
      left.length + (current.filter (· ∉ left)).length := by
  -- the keys on both sides are counted in either list
  have hcommon : (current.filter (· ∈ left)).Perm (left.filter (· ∈ current)) :=
    (List.perm_ext_iff_of_nodup (hcurrent.filter _) (hleft.filter _)).mpr fun key => by
      simp [and_comm]
  rw [← length_filter_mem_add current left, ← length_filter_mem_add left current,
    hcommon.length_eq]
  omega

end Keys

/-! ### Entries -/

/-- The entry of a sheet that was compared with kept keys as `A` allows, apart from references. -/
def SheetReport.Of (A : String → Except BakeError (List String) → Prop) (b : Baker c)
    (sheet : SheetDecl c × String) (entry : SheetReport) : Prop :=
  (∃ raws, b.source sheet.1.name = .ok raws) ∧
    ∃ kept, A sheet.2 (.ok kept) ∧ entry = b.entryOf sheet.1 sheet.2 kept

/-- The entry of a sheet accounts for a bake from one store to another. -/
structure SheetReport.Accounts (b : Baker c) (store store' : ArtifactStore)
    (sheet : SheetDecl c × String) (entry : SheetReport) : Prop where
  name_eq : entry.name = sheet.1.name
  fileName_eq : entry.fileName = sheet.2
  rows_eq : entry.rows = (b.ingested sheet.1).size
  /-- Each raw row of the source is a row of the table, or it has an issue. -/
  raws : ∃ raws kept, b.source sheet.1.name = .ok raws ∧
    List.Forall₂ ((c.type sheet.1.id).ConvertsAt b.schema.naming (raws.getD [])) kept
      (b.ingested sheet.1).table.rows.toList ∧
    (kept ++ entry.issues.map RowIssue.position).Perm (List.range (raws.getD []).length) ∧
    entry.rows + entry.issues.length = (raws.getD []).length
  /-- Each key of the table is created or updated, and each key of before is updated or removed. -/
  keys : ∃ before, store.rowKeys sheet.2 = .ok before ∧
    entry.created = ((b.ingested sheet.1).keys.filter (· ∉ before)).length ∧
    entry.updated = ((b.ingested sheet.1).keys.filter (· ∈ before)).length ∧
    entry.created + entry.updated = entry.rows ∧
    entry.removed = (before.filter (· ∉ (b.ingested sheet.1).keys)).length ∧
    /- What is kept afterwards is what was kept before, changed by what the entry counts. -/
    ((b.ingested sheet.1).KeepsKeys → ∃ after, store'.rowKeys sheet.2 = .ok after ∧
      after.Perm (b.ingested sheet.1).keys ∧ after.length + entry.removed =
        before.length + entry.created ∧ after.length = entry.rows)

namespace Baker

variable {b : Baker c} {s s' : BakeState c} {store store' : ArtifactStore}
  {sheets : List (SheetDecl c × String)} {sheet : SheetDecl c × String}

/-- At the last sheet the report has an entry for each sheet that is baked, in order. -/
theorem reports_of_run_addSheets {A : String → Except BakeError (List String) → Prop}
    {ds : List (SheetDecl c)} {position : Nat} (hA : ∀ file, A file (store.rowKeys file))
    (h : List.Forall₂ (SheetReport.Of A b) sheets s.report.sheets)
    (hrun : (b.addSheets s position ds).run store = (.ok s', store')) :
    List.Forall₂ (SheetReport.Of A b) (sheets ++ b.sheetFiles position ds) s'.report.sheets := by
  -- on the sheets still to be read: every sheet that is not left out adds an entry
  induction ds generalizing s position sheets with
  | nil =>
    cases hrun
    simpa [sheetFiles] using h
  | cons d rest ih =>
    obtain ⟨-, ⟨hskip, hrest⟩ | ⟨file, kept, next, hfile, hkept, hadd, hrest⟩⟩ :=
      run_addSheets_cons_eq_ok_iff.mp hrun
    · rw [sheetFiles_of_fileFor_none hskip]
      exact ih (s := skip s d.name) h hrest
    · obtain ⟨hsource, hentries⟩ := sheets_addSheet hadd
      rw [(sheetFiles_of_fileFor_some rest hfile).1, List.append_cons]
      refine ih ?_ hrest
      rw [hentries]
      exact List.rel_append h (.cons ⟨hsource, kept, hkept ▸ hA file, rfl⟩ .nil)

/-- The rows and issues of an entry are the raw rows of its sheet. -/
theorem raws_of_entryOf {raws : Option (List RawRow)} (d : SheetDecl c) (file : String)
    (before : List String) (hsource : b.source d.name = .ok raws) :
    ∃ kept, List.Forall₂ ((c.type d.id).ConvertsAt b.schema.naming (raws.getD [])) kept
        (b.ingested d).table.rows.toList ∧
      (kept ++ (b.entryOf d file before).issues.map RowIssue.position).Perm
        (List.range (raws.getD []).length) ∧
      (b.entryOf d file before).rows + (b.entryOf d file before).issues.length =
        (raws.getD []).length := by
  have hraws : b.rawRows d.name = raws.getD [] := rawRows_of_source hsource
  obtain ⟨kept, hingests⟩ :=
    Table.ingests_ingest (c.type d.id) d.name b.schema.naming (b.rawRows d.name)
  -- each position is kept or has an issue, and not both
  have hperm := hingests.perm_range
  have hrows := hingests.rows
  have hlength := hperm.length_eq
  rw [List.length_append, List.length_map, List.length_range, hrows.length_eq,
    Array.length_toList] at hlength
  rw [← hraws]
  exact ⟨kept, hrows, hperm, hlength⟩

/-- The counts of an entry are those of the keys of its sheet and the kept ones. -/
theorem keys_of_entryOf (d : SheetDecl c) (file : String) {before : List String}
    (hbefore : before.Nodup) :
    (b.entryOf d file before).created = ((b.ingested d).keys.filter (· ∉ before)).length ∧
      (b.entryOf d file before).updated = ((b.ingested d).keys.filter (· ∈ before)).length ∧
      (b.entryOf d file before).created + (b.entryOf d file before).updated =
        (b.entryOf d file before).rows ∧
      (b.entryOf d file before).removed =
        (before.filter (· ∉ (b.ingested d).keys)).length := by
  have hkeys : (b.ingested d).keys.Nodup := (b.indexed_ingested d).nodup
  have hrows : (b.ingested d).keys.length = (b.ingested d).size := Table.length_keys _
  have hcounted := length_filter_mem_add (b.ingested d).keys before
  simp only [entryOf, diffKeys_eq hbefore hkeys]
  exact ⟨trivial, trivial, (Nat.add_comm _ _).trans (hcounted.trans hrows), trivial⟩

/-- If linking leaves the keys of a sheet, they are what is kept of it after a save. -/
theorem rowKeys_perm_of_saved
    (hs : s.Holds (fun file answer => answer = store.rowKeys file) b sheets)
    (hstore : store.Sorted)
    (hsaved : ArtifactStore.Saved (b.plan (b.link s).container s.baked) store store')
    (hsheet : sheet ∈ sheets) (hkeys : (b.ingested sheet.1).KeepsKeys) :
    ∃ after, store'.rowKeys sheet.2 = .ok after ∧ after.Perm (b.ingested sheet.1).keys := by
  have hlinked := hkeys (s.container.linker b.assets)
  have htable := hs.table?_of_keys_linked hstore hsaved hsheet hlinked
  refine ⟨_, ArtifactStore.rowKeys_eq_ok_iff.mpr
    ⟨_, ArtifactStore.entries_of_table? htable, rfl⟩, ?_⟩
  have hnodup : ((b.ingested sheet.1).linked (s.container.linker b.assets)).keys.Nodup :=
    hlinked ▸ (b.indexed_ingested sheet.1).nodup
  rw [AnyTable.keys, ← Table.map_fst_encode] at hnodup hlinked
  rw [← hlinked]
  exact (Entries.ofList_perm hnodup).map Prod.fst

/-- The entry of a sheet accounts for a bake if what is kept of the sheet afterwards are its
keys. -/
theorem accounts_of_entry {entry : SheetReport} (hstore : store.Sorted)
    (hentry : SheetReport.Of (fun file answer => answer = store.rowKeys file) b sheet entry)
    (hafter : (b.ingested sheet.1).KeepsKeys → ∃ after, store'.rowKeys sheet.2 = .ok after ∧
      after.Perm (b.ingested sheet.1).keys) (errors : List ReferenceError) :
    SheetReport.Accounts b store store' sheet { entry with references := errors } := by
  obtain ⟨⟨raws, hsource⟩, before, hbefore, rfl⟩ := hentry
  have hnodup := hstore.nodup_rowKeys hbefore.symm
  have hkeys : (b.ingested sheet.1).keys.Nodup := (b.indexed_ingested sheet.1).nodup
  have hrows : (b.ingested sheet.1).keys.length = (b.ingested sheet.1).size := Table.length_keys _
  obtain ⟨kept, hraws⟩ := raws_of_entryOf sheet.1 sheet.2 before hsource
  obtain ⟨hcreated, hupdated, hadd, hremoved⟩ := keys_of_entryOf (b := b) sheet.1 sheet.2 hnodup
  refine ⟨rfl, rfl, rfl, ⟨raws, kept, hsource, hraws⟩, before, hbefore.symm, hcreated, hupdated,
    hadd, hremoved, fun hkeeps => ?_⟩
  obtain ⟨after, hread, hperm⟩ := hafter hkeeps
  refine ⟨after, hread, hperm, ?_, hperm.length_eq.trans hrows⟩
  dsimp only
  rw [hperm.length_eq, hremoved, hcreated]
  exact length_add_length_gone hnodup hkeys

/-- The entries of a bake account for the sheets that are baked, in order. -/
theorem accounts_of_run (hstore : store.Sorted) {out : BakeOutput c}
    (h : b.bake.run store = (.ok out, store')) :
    List.Forall₂ (SheetReport.Accounts b store store') b.bakedSheets out.report.sheets := by
  obtain ⟨s, hrun, -, rfl, hsave⟩ := run_bake_eq_ok_iff.mp h
  have hs := holds_of_run (A := fun file answer => answer = store.rowKeys file) (fun _ => rfl) hrun
  have hsaved := ArtifactStore.saved_of_save (hs.map_fileName_plan ▸ hs.files_nodup) hsave
  have hentries : List.Forall₂ (SheetReport.Of (fun file answer => answer = store.rowKeys file) b)
      ([] ++ b.bakedSheets) s.report.sheets :=
    reports_of_run_addSheets (fun _ => rfl) .nil hrun
  -- an entry gets its references from the table beside it, which leaves its counts
  rw [sheets_link_of_run hrun, hs.tables_eq, List.zipWith_comm]
  refine forall₂_zipWith ((List.forall₂_and_left _ _).mpr ⟨fun sheet hsheet => ?_, hentries⟩)
    fun sheet entry hsheet => accounts_of_entry hstore hsheet.2 hsheet.1 _
  exact rowKeys_perm_of_saved hs hstore hsaved hsheet

/-- The report of a bake that succeeds has an entry for every sheet that is baked, in order, which
accounts for all that happened to the sheet. Each raw row of the source is a row of the table or has
an issue, and not both. Each row of the table is counted once: as created if its key was not kept in
the store before, else as updated. The keys that were kept before and that no row has are counted as
removed. So unless ids depend on what references are resolved to, the keys that are kept afterwards
are those of the table, and their number is what it was, less the removed and with the created
ones. -/
theorem counts_of_bake (hstore : store.Sorted) {out : BakeOutput c}
    (h : b.bake.run store = (.ok out, store')) :
    (∃ l : Linker, out.container.tables.toList =
      b.bakedSheets.map fun sheet => (b.ingested sheet.1).linked l) ∧
    List.Forall₂ (SheetReport.Accounts b store store') b.bakedSheets out.report.sheets :=
  ⟨tables_of_run h, accounts_of_run hstore h⟩

end Baker

namespace Game

/-- A store in which the quests 1 and 9 are kept. -/
def keptQuests : ArtifactStore :=
  ArtifactStore.empty.setEntries (ArtifactStore.rowsTable "Quests") [("1", []), ("9", [])]

theorem sorted_keptQuests : keptQuests.Sorted :=
  ArtifactStore.sorted_empty.setEntries (List.pairwise_pair.mpr (by decide))

theorem entries_keptQuests (name : String) : ∃ es, keptQuests.entries name = .ok es := by
  by_cases hname : name = ArtifactStore.rowsTable "Quests"
  · exact ⟨_, ArtifactStore.entries_of_table?
      ((ArtifactStore.table?_setEntries ..).trans (if_pos hname))⟩
  · exact ⟨[], ArtifactStore.entries_of_table?_none
      ((ArtifactStore.table?_setEntries ..).trans (if_neg hname))⟩

theorem rowKeys_keptQuests : keptQuests.rowKeys "Quests" = .ok ["1", "9"] :=
  ArtifactStore.rowKeys_eq_ok_iff.mpr ⟨_, ArtifactStore.entries_of_table?
    ((ArtifactStore.table?_setEntries ..).trans (if_pos rfl)), rfl⟩

end Game

/-- Of the two quests of a source one is kept in a store, beside a third one. -/
theorem Baker.counts_of_bake_quests : ∃ out store entry after,
    Game.questBaker.bake.run Game.keptQuests = (.ok out, store) ∧ out.report.sheets = [entry] ∧
      (entry.rows, entry.created, entry.updated, entry.removed, entry.issues.length) =
        (2, 1, 1, 1, 0) ∧
      store.rowKeys "Quests" = .ok after ∧ after.Perm ["1", "2"] := by
  obtain ⟨out, store, h⟩ := Game.bakeable_questBaker.exists_run rfl
    (fun file => Game.entries_keptQuests _) (Game.entries_keptQuests _)
  obtain ⟨-, hreport⟩ := Baker.counts_of_bake Game.sorted_keptQuests h
  rw [Game.bakedSheets_questBaker] at hreport
  obtain ⟨entry, rest, haccounts, hrest, hsheets⟩ := List.forall₂_cons_left_iff.mp hreport
  obtain rfl := List.forall₂_nil_left_iff.mp hrest
  obtain ⟨-, -, hrows, ⟨raws, kept, hsource, -, -, htotal⟩, before, hbefore, hcreated, hupdated, -,
    hremoved, hafter⟩ := haccounts
  obtain ⟨after, hread, hperm, -⟩ := hafter (TableType.ResolutionBlind.keepsKeys
    (t := Game.questBaker.ingested Game.questSheet) Game.resolutionBlind_quest)
  obtain rfl := Except.ok.inj (hbefore.symm.trans Game.rowKeys_keptQuests)
  have hraws : Game.questBaker.rawRows "Quests" = raws.getD [] := Baker.rawRows_of_source hsource
  rw [← hraws, Game.rawRows_questBaker] at htotal
  rw [Game.keys_ingested_questSheet] at hcreated hupdated hremoved hperm
  have hsize := hrows.trans Game.size_ingested_questSheet
  have hissues : entry.issues.length = 0 := by
    rw [hsize] at htotal
    exact Nat.add_left_cancel htotal
  refine ⟨out, store, entry, after, h, hsheets, ?_, hread, hperm⟩
  rw [hsize, hcreated, hupdated, hremoved, hissues]
  decide

/-- Ids may not depend on what references are resolved to. Both drafts are counted as created, but
one entry is kept of them. -/
theorem Baker.counts_of_bake_drafts : ∃ out store entry,
    Game.draftBaker.bake.run .empty = (.ok out, store) ∧ out.report.sheets = [entry] ∧
      ArtifactStore.empty.rowKeys "Drafts" = .ok [] ∧
      (entry.rows, entry.created, entry.removed) = (2, 2, 0) ∧
      store.rowKeys "Drafts" = .ok ["done"] := by
  obtain ⟨out, store, h⟩ := Game.exists_run_draftBaker
  have hreport := Baker.accounts_of_run ArtifactStore.sorted_empty h
  obtain ⟨entry, rest, haccounts, hrest, hsheets⟩ := List.forall₂_cons_left_iff.mp hreport
  obtain rfl := List.forall₂_nil_left_iff.mp hrest
  obtain ⟨before, hbefore, hcreated, -, -, hremoved, -⟩ := haccounts.keys
  obtain rfl : before = [] := (Except.ok.inj hbefore).symm
  have hrows : entry.rows = 2 := haccounts.rows_eq.trans Game.size_ingested_draftSheet
  rw [Game.keys_ingested_draftSheet] at hcreated hremoved
  refine ⟨out, store, entry, h, hsheets, rfl, ?_, Game.rowKeys_of_run h⟩
  rw [hrows, hcreated, hremoved]
  rfl

end TypedSheets
