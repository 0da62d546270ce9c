import TypedSheets.Proofs.Bake.Verdict
import TypedSheets.Proofs.Container.Reordered

/-!
# Bakes of the same sheets in another order

The order in which sheets are declared and rows are listed decides on the places of rows, and so on
what references are resolved to. It decides on nothing else as long as keys are distinct: two bakes
of the same sheets, in whatever orders, give containers with the same rows under the same names and
keys, whose references address the same rows, and they report the same reference errors.

## Main definitions

* `Baker.converted` — what the raw rows of a sheet convert to
* `Baker.DistinctKeys` — no key twice in a sheet, nor in two sheets of a record type
* `Baker.Reordered` — the same sheets and raw rows in some order

## Main results

* `Baker.Reordered.container` — the containers hold the same rows before they are linked
* `Baker.bake_reordered` — the outcome of a bake does not depend on the order
-/

namespace TypedSheets

variable {c : Catalog}

/-! ### Reports -/

/-- The reference errors that are reported for a sheet, if it has an entry. -/
def BakeReport.references? (r : BakeReport) (sheet : String) : Option (List ReferenceError) :=
  (r.sheets.find? fun entry => entry.name == sheet).map SheetReport.references

/-- The table of a name is the first one that has it. -/
theorem Container.Indexed.sheet?_eq_find? {b : Container c} (h : b.Indexed) (sheet : String) :
    b.sheet? sheet = b.tables.toList.find? fun t => t.name == sheet := by
  cases hfind : b.tables.toList.find? fun t => t.name == sheet with
  | some t =>
    have hname : t.name = sheet := by simpa using List.find?_some hfind
    exact h.sheet?_eq_some_iff.mpr ⟨List.mem_of_find?_eq_some hfind, hname⟩
  | none =>
    rw [h.sheet?_eq_none_iff, sheetNames, List.mem_map]
    rintro ⟨t, ht, hname⟩
    exact List.find?_eq_none.mp hfind t ht (by simpa using hname)

namespace Baker

variable {b b' : Baker c} {s s' : BakeState c} {d : SheetDecl c}

/-- Entries that have got the errors of tables, found by the names of the tables. -/
theorem find?_references {entries : List SheetReport} {ts : List (AnyTable c)}
    (F : AnyTable c → List ReferenceError)
    (hnames : entries.map SheetReport.name = ts.map AnyTable.name) (sheet : String) :
    ((List.zipWith (fun entry t => { entry with references := F t }) entries ts).find?
        fun entry => entry.name == sheet).map SheetReport.references =
      (ts.find? fun t => t.name == sheet).map F := by
  induction ts generalizing entries with
  | nil =>
    obtain rfl := List.map_eq_nil_iff.mp hnames
    rfl
  | cons t rest ih =>
    cases entries with
    | nil => cases hnames
    | cons entry entries =>
      obtain ⟨hname, hothers⟩ := List.cons.inj hnames
      rw [List.zipWith_cons_cons, List.find?_cons, List.find?_cons, ← hname]
      cases entry.name == sheet with
      | true => rfl
      | false => exact ih hothers

/-- The errors that a bake reports for a sheet are those of linking its table. -/
theorem references?_link {A : String → Except BakeError (List String) → Prop}
    {sheets : List (SheetDecl c × String)} (hs : s.Holds A b sheets)
    (hnames : s.report.sheets.map SheetReport.name = s.container.sheetNames) (sheet : String) :
    (b.link s).report.references? sheet = (s.container.sheet? sheet).map fun t =>
      (t.table.mapReferences (s.container.linker b.assets)).2 := by
  have hreports := linkTables_reports (s.container.linker b.assets) hnames hs.indexed.nodup
  rw [hs.indexed.sheet?_eq_find?, ← find?_references _ hnames, ← hreports]
  rfl

/-! ### Sheets and rows -/

/-- The sheets that are baked are those that are declared, without those that are skipped. -/
theorem map_fst_sheetFiles (position : Nat) (ds : List (SheetDecl c)) :
    (b.sheetFiles position ds).map Prod.fst =
      ds.filter fun d => !(SheetName.isPseudo d.name && !b.schema.allowPseudo) := by
  induction ds generalizing position with
  | nil => rfl
  | cons d rest ih =>
    obtain ⟨file, hfile⟩ := SheetName.exists_fileName? d.name position
    rw [sheetFiles, List.filter_cons, hfile]
    cases SheetName.isPseudo d.name && !b.schema.allowPseudo with
    | true => simpa using ih (position + 1)
    | false => simpa using ih (position + 1)

/-- What the raw rows of a sheet convert to. -/
def converted (b : Baker c) (d : SheetDecl c) : List (c.type d.id).Row :=
  (b.rawRows d.name).filterMap ((c.type d.id).convert? b.schema.naming)

/-- The keys of the rows that the raw rows of a sheet convert to. -/
def convertedKeys (b : Baker c) (d : SheetDecl c) : List String :=
  (b.converted d).map (c.type d.id).key

/-- The raw rows of no sheet that is baked convert to two rows with one key, and those of no two
sheets of a record type do. -/
structure DistinctKeys (b : Baker c) : Prop where
  within : ∀ p ∈ b.bakedSheets, (b.convertedKeys p.1).Nodup
  across : ∀ p ∈ b.bakedSheets, ∀ q ∈ b.bakedSheets, p.1.recordName = q.1.recordName →
    p.1.name ≠ q.1.name → ∀ key ∈ b.convertedKeys p.1, key ∉ b.convertedKeys q.1

/-- Two bakes have the same declared sheets in some order, and for each the same raw rows in some
order. -/
structure Reordered (b b' : Baker c) : Prop where
  sheets : b.schema.sheets.Perm b'.schema.sheets
  naming_eq : b.schema.naming = b'.schema.naming
  allowPseudo_eq : b.schema.allowPseudo = b'.schema.allowPseudo
  assets_eq : b.assets = b'.assets
  rows : ∀ d ∈ b.schema.sheets, (b.rawRows d.name).Perm (b'.rawRows d.name)

/-- Without a key twice, all rows that are converted make it into the table. -/
theorem rows_ingested (h : (b.convertedKeys d).Nodup) :
    (b.ingested d).table.rows.toList = b.converted d :=
  Table.rows_ingest_eq_filterMap h

theorem keys_ingested_eq (h : (b.convertedKeys d).Nodup) :
    (b.ingested d).keys = b.convertedKeys d := by
  rw [AnyTable.keys, Table.keys, rows_ingested h]
  rfl

/-- Distinct keys are distinct in the container of a bake. -/
theorem DistinctKeys.keysApart {A : String → Except BakeError (List String) → Prop}
    (h : b.DistinctKeys) (hs : s.Holds A b b.bakedSheets) : s.container.KeysApart := by
  rw [Container.KeysApart, hs.tables_eq]
  refine List.forall_mem_map.mpr fun p hp => List.forall_mem_map.mpr fun q hq => ?_
  intro hrecord key hkey hkey'
  rw [keys_ingested_eq (h.within p hp)] at hkey
  rw [keys_ingested_eq (h.within q hq)] at hkey'
  rw [name_ingested, name_ingested]
  by_contra hne
  exact h.across p hp q hq hrecord hne key hkey hkey'

/-- The rows of JSON hold no resolved references. -/
theorem unresolved_of_fromJson {A : String → Except BakeError (List String) → Prop}
    (hsource : b.source.FromJson) (hs : s.Holds A b b.bakedSheets) : s.container.Unresolved := by
  rw [Container.Unresolved, hs.tables_eq]
  refine List.forall_mem_map.mpr fun p _ => ?_
  intro row hrow
  obtain ⟨raw, hraw, hread⟩ := exists_of_mem_ingested hrow
  obtain ⟨json, hjson⟩ := fromJson_rawRows hsource p.1.name raw hraw
  exact Members.unresolved_of_read hjson hread

namespace Reordered

variable (h : b.Reordered b')

include h

theorem bakedSheets_perm : (b.bakedSheets.map Prod.fst).Perm (b'.bakedSheets.map Prod.fst) := by
  rw [bakedSheets, bakedSheets, map_fst_sheetFiles, map_fst_sheetFiles, h.allowPseudo_eq]
  exact h.sheets.filter _

theorem converted_perm (hd : d ∈ b.schema.sheets) : (b.converted d).Perm (b'.converted d) := by
  rw [converted, converted, h.naming_eq]
  exact (h.rows d hd).filterMap _

/-- The tables of a sheet have the same rows. -/
theorem ingested (hd : d ∈ b.schema.sheets) (hkeys : (b.convertedKeys d).Nodup) :
    (b.ingested d).Reordered (b'.ingested d) := by
  have hkeys' : (b'.convertedKeys d).Nodup := ((h.converted_perm hd).map _).nodup_iff.mp hkeys
  have hrows : (b.ingested d).table.rows.toList.Perm (b'.ingested d).table.rows.toList := by
    rw [rows_ingested hkeys, rows_ingested hkeys']
    exact h.converted_perm hd
  exact .mk d.id ((b.name_ingested d).trans (b'.name_ingested d).symm) hrows

/-- Before they are linked, the containers have the same rows. -/
theorem container {A : String → Except BakeError (List String) → Prop} (hkeys : b.DistinctKeys)
    (hs : s.Holds A b b.bakedSheets) (hs' : s'.Holds A b' b'.bakedSheets) :
    s.container.Reordered s'.container := by
  refine ⟨(b.bakedSheets.map Prod.fst).map b'.ingested, ?_, ?_⟩
  · rw [hs.tables_eq, List.map_map, List.forall₂_map_left_iff, List.forall₂_map_right_iff]
    refine List.forall₂_same.mpr fun p hp => ?_
    exact h.ingested (mem_of_mem_sheetFiles hp) (hkeys.within p hp)
  · have htables : s'.container.tables.toList =
        (b'.bakedSheets.map Prod.fst).map b'.ingested := by
      rw [hs'.tables_eq, List.map_map]
      rfl
    rw [htables]
    exact h.bakedSheets_perm.map _

end Reordered

/-- Two bakes of the same sheets and raw rows, in whatever orders, have the same outcome if both
succeed and no key stands twice in a sheet or in two sheets of a record type. The containers have
the same sheets. Under the name of a sheet and a key they have the same row, or both have none: the
rows differ in the places of the rows that they refer to at most, and these places are those of one
sheet and key in the two containers. The reports have the same reference errors for each sheet, up
to order. The bakes may run on any stores. -/
theorem bake_reordered {b b' : Baker c} (hsource : b.source.FromJson) (hkeys : b.DistinctKeys)
    (h : b.Reordered b') {out out' : BakeOutput c} {store₁ store₂ store₁' store₂' : ArtifactStore}
    (hrun : b.bake.run store₁ = (.ok out, store₂))
    (hrun' : b'.bake.run store₁' = (.ok out', store₂')) :
    out.container.sheetNames.Perm out'.container.sheetNames ∧
      (∀ sheet key, Option.Rel (AnyRow.Alike out.container out'.container)
        (out.container.row? sheet key) (out'.container.row? sheet key)) ∧
      ∀ sheet, Option.Rel List.Perm (out.report.references? sheet)
        (out'.report.references? sheet) := by
  obtain ⟨s, hadded, -, rfl, -⟩ := run_bake_eq_ok_iff.mp hrun
  obtain ⟨s', hadded', -, rfl, -⟩ := run_bake_eq_ok_iff.mp hrun'
  have hs := holds_of_run (A := fun _ _ => True) (fun _ => trivial) hadded
  have hs' := holds_of_run (A := fun _ _ => True) (fun _ => trivial) hadded'
  -- the containers that were read are reordered, and linking looks rows up by name and key
  have hsame := h.container hkeys hs hs'
  rw [link_container, link_container, ← h.assets_eq]
  refine ⟨?_, ?_, fun sheet => ?_⟩
  · rw [Container.sheetNames_linked, Container.sheetNames_linked]
    exact hsame.sheetNames_perm
  · exact hsame.alike_linked hs.indexed hs'.indexed (hkeys.keysApart hs)
      (unresolved_of_fromJson hsource hs) b.assets
  · rw [references?_link hs (reports_of_run hadded), references?_link hs' (reports_of_run hadded'),
      ← h.assets_eq]
    exact hsame.errors_perm hs.indexed hs'.indexed b.assets sheet

end Baker

/-! ### Two sheets of quests -/

namespace Game

/-- Another sheet of quests. -/
def sideSheet : SheetDecl catalog := ⟨"Side", questSheet.id⟩

/-- The quests of the first sheet. One of them requires that of the other sheet. -/
def mainQuests : List Json :=
  [.object [("Id", .int 1)],
    .object [("Id", .int 2), ("Prerequisites", .array [.string "3", .string "9"])]]

/-- The quest of the other sheet, which requires one of the first sheet. -/
def sideQuests : List Json :=
  [.object [("Id", .int 3), ("Prerequisites", .array [.string "1"])]]

/-- A bake of both sheets of quests, or of these sheets and their quests the other way round. -/
def talesBaker (turned : Bool) : Baker catalog :=
  { questBaker with
    schema := ⟨if turned then [sideSheet, questSheet] else [questSheet, sideSheet], .pascal, false⟩
    source := fun sheet => (rowsOfJson sheet (.array (if sheet = "Side" then sideQuests
      else if turned then mainQuests.reverse else mainQuests))).map some }

variable (turned : Bool)

theorem fromJson_talesBaker : (talesBaker turned).source.FromJson :=
  fun sheet raws h => SheetSource.fromJson_rowsOfJson _ sheet raws h

theorem exists_source_talesBaker (sheet : String) :
    ∃ raws, (talesBaker turned).source sheet = .ok (some raws) ∧ raws.length ≤ 2 := by
  by_cases hside : sheet = "Side"
  · simp only [talesBaker, if_pos hside]
    exact ⟨_, rfl, by decide⟩
  · simp only [talesBaker, if_neg hside]
    cases turned with
    | false => exact ⟨_, rfl, by decide⟩
    | true => exact ⟨_, rfl, by decide⟩

theorem bakeable_talesBaker : (talesBaker turned).Bakeable where
  named := by cases turned <;> decide
  files_nodup := by cases turned <;> decide
  names_nodup := by cases turned <;> decide
  source p _ := by
    obtain ⟨raws, hraws, -⟩ := exists_source_talesBaker turned p.1.name
    exact ⟨_, hraws⟩
  sheets_le := by cases turned <;> decide
  rows_le p _ := by
    obtain ⟨raws, hraws, hlength⟩ := exists_source_talesBaker turned p.1.name
    exact (Baker.size_ingested_le hraws).trans (hlength.trans (by decide))

theorem convertedKeys_mainQuests : (talesBaker false).convertedKeys questSheet = ["1", "2"] := by
  decide +kernel

theorem convertedKeys_sideQuests : (talesBaker false).convertedKeys sideSheet = ["3"] := by
  decide +kernel

theorem distinctKeys_talesBaker : (talesBaker false).DistinctKeys where
  within := by
    refine List.forall_mem_cons.mpr ⟨?_, List.forall_mem_singleton.mpr ?_⟩
    · exact convertedKeys_mainQuests ▸ (by decide : ["1", "2"].Nodup)
    · exact convertedKeys_sideQuests ▸ (by decide : ["3"].Nodup)
  across := by
    have hapart : ∀ key ∈ ["1", "2"], key ∉ ["3"] := by decide
    refine List.forall_mem_cons.mpr ⟨?_, List.forall_mem_singleton.mpr ?_⟩
    · refine List.forall_mem_cons.mpr ⟨fun _ hne => absurd rfl hne,
        List.forall_mem_singleton.mpr fun _ _ => ?_⟩
      rw [convertedKeys_mainQuests, convertedKeys_sideQuests]
      exact hapart
    · refine List.forall_mem_cons.mpr ⟨fun _ _ => ?_,
        List.forall_mem_singleton.mpr fun _ hne => absurd rfl hne⟩
      rw [convertedKeys_mainQuests, convertedKeys_sideQuests]
      exact fun key hside hmain => hapart key hmain hside

theorem reordered_talesBaker : (talesBaker false).Reordered (talesBaker true) where
  sheets := List.Perm.swap _ _ _
  naming_eq := rfl
  allowPseudo_eq := rfl
  assets_eq := rfl
  rows := List.forall_mem_cons.mpr ⟨List.Perm.swap _ _ _,
    List.forall_mem_singleton.mpr (List.Perm.refl _)⟩

end Game

/-- Two sheets of quests are baked, and the other way round in another store. -/
theorem Baker.bake_reordered_tales : ∃ out out' store store',
    (Game.talesBaker false).bake.run .empty = (.ok out, store) ∧
      (Game.talesBaker true).bake.run .empty = (.ok out', store') ∧
      (Game.talesBaker false).source.FromJson ∧ (Game.talesBaker false).DistinctKeys ∧
      (Game.talesBaker false).Reordered (Game.talesBaker true) ∧
      out.container.sheetNames.Perm out'.container.sheetNames ∧
      (∀ sheet key, Option.Rel (AnyRow.Alike out.container out'.container)
        (out.container.row? sheet key) (out'.container.row? sheet key)) ∧
      ∀ sheet, Option.Rel List.Perm (out.report.references? sheet)
        (out'.report.references? sheet) := by
  have hopens := ArtifactStore.opensRows_empty
  obtain ⟨out, store, hrun⟩ := (Game.bakeable_talesBaker false).exists_run rfl hopens ⟨[], rfl⟩
  obtain ⟨out', store', hrun'⟩ := (Game.bakeable_talesBaker true).exists_run rfl hopens ⟨[], rfl⟩
  have hsource := Game.fromJson_talesBaker false
  have hkeys := Game.distinctKeys_talesBaker
  have hreordered := Game.reordered_talesBaker
  exact ⟨out, out', store, store', hrun, hrun', hsource, hkeys, hreordered,
    bake_reordered hsource hkeys hreordered hrun hrun'⟩

end TypedSheets
