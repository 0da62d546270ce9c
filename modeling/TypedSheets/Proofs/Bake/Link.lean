import TypedSheets.Proofs.Artifact.Store
import TypedSheets.Proofs.Bake.Run
import TypedSheets.Proofs.Cell.Origin
import TypedSheets.Proofs.Table.Binary

/-!
# Containers with their references linked

Linking a container replaces references and leaves everything else: its sheets, their order, their
keys and so the places of rows. So what was looked up before is right afterwards. Keys are left as
long as the ids of rows do not depend on what references are resolved to.

The plan of a bake has a part for every table of its container, in order. It removes the kept keys
that the table has no longer, so that after the save the rows of the table are all that is kept of
the sheet.

## Main definitions

* `AnyTable.linked`, `Container.linked` — tables and containers with their references linked
* `AnyTable.KeepsKeys`, `Container.KeepsKeys`, `Baker.KeepsKeys` — linking leaves the keys
* `Container.LinksRow`, `LinksAsset` — what a linked reference says
* `SheetPlan.Of` — what a bake saves of a sheet
* `AnyTable.kept` — what is kept of a table

## Main results

* `Baker.exists_of_mem_linked`, `Baker.rows_linked` — the rows of a linked table
* `Baker.link_container` — a bake links the container that it has read
* `Container.Indexed.linked` — a linked container is indexed
* `Container.linksRow_linked`, `linksAsset_linked` — what a linker makes of references is right
* `Container.everyRef_linked` — all references in a linked container are right
* `mem_removed_diffKeys` — which keys are removed
* `BakeState.Holds.plan_sheets` — the parts of a plan
* `BakeState.Holds.table?_of_keys_linked` — what is kept of a sheet after a save
-/

namespace TypedSheets

open DataStore (positionsFrom)

variable {c : Catalog}

/-! ### Tables -/

namespace AnyTable

variable (l : Linker) (t : AnyTable c)

/-- A table with its references linked. -/
def linked : AnyTable c := ⟨t.id, (t.table.mapReferences l).1⟩

@[simp] theorem name_linked : (t.linked l).name = t.name := rfl

@[simp] theorem size_linked : (t.linked l).size = t.size := t.table.size_mapReferences l

/-- Whatever the references of a table are linked to, its rows keep their keys. -/
def KeepsKeys : Prop := ∀ l : Linker, (t.linked l).keys = t.keys

variable {l t}

theorem keys_linked (h : (c.type t.id).ResolutionBlind) : (t.linked l).keys = t.keys :=
  t.table.keys_mapReferences l h

end AnyTable

theorem TableType.ResolutionBlind.keepsKeys {t : AnyTable c} (h : (c.type t.id).ResolutionBlind) :
    t.KeepsKeys :=
  fun _ => AnyTable.keys_linked h

/-! ### Containers -/

namespace Container

variable (b : Container c) (assets : AssetResolver)

/-- A container with its references linked. -/
def linked : Container c :=
  { b with tables := (b.tables.toList.map (AnyTable.linked (b.linker assets))).toArray }

theorem tables_linked :
    (b.linked assets).tables.toList = b.tables.toList.map (AnyTable.linked (b.linker assets)) := rfl

theorem sheetNames_linked : (b.linked assets).sheetNames = b.sheetNames := by
  rw [sheetNames, tables_linked, List.map_map]
  rfl

theorem getElem?_tables_linked (i : Nat) :
    (b.linked assets).tables[i]? = b.tables[i]?.map (AnyTable.linked (b.linker assets)) := by
  rw [← Array.getElem?_toList, tables_linked, List.getElem?_map, Array.getElem?_toList]

/-- Whatever the references of a container are linked to, its rows keep their keys. -/
def KeepsKeys : Prop := ∀ t ∈ b.tables.toList, t.KeepsKeys

variable {b assets} {target key : String} {k : RowKey}

theorem hasKey_linked (h : b.KeepsKeys) :
    (b.linked assets).HasKey target key ↔ b.HasKey target key := by
  constructor
  · rintro ⟨t, ht, hname, hkey⟩
    rw [tables_linked] at ht
    obtain ⟨t', ht', rfl⟩ := List.mem_map.mp ht
    exact ⟨t', ht', hname, h t' ht' _ ▸ hkey⟩
  · rintro ⟨t, ht, hname, hkey⟩
    exact ⟨t.linked _, List.mem_map_of_mem ht, hname, (h t ht _).symm ▸ hkey⟩

theorem FirstRow.linked (h : b.KeepsKeys) (hk : b.FirstRow target key k) :
    (b.linked assets).FirstRow target key k := by
  have hmem : ∀ {i : Nat} {t : AnyTable c}, b.tables[i]? = some t → t ∈ b.tables.toList := by
    intro i t ht
    rw [← Array.getElem?_toList] at ht
    exact List.mem_of_getElem? ht
  obtain ⟨⟨t, ht, hname, hrow⟩, hfirst⟩ := hk
  refine ⟨⟨t.linked (b.linker assets), ?_, hname, ?_⟩, ?_⟩
  · rw [getElem?_tables_linked, ht, Option.map_some]
  · rw [h t (hmem ht), hrow]
  · intro i hi t' ht' hname' hkey'
    rw [getElem?_tables_linked] at ht'
    obtain ⟨t'', ht'', rfl⟩ := Option.map_eq_some_iff.mp ht'
    rw [h t'' (hmem ht'')] at hkey'
    exact hfirst i hi t'' ht'' hname' hkey'

/-- A container whose references are linked is indexed as before. -/
theorem Indexed.linked (hb : b.Indexed) (h : b.KeepsKeys) : (b.linked assets).Indexed where
  nodup := by
    rw [sheetNames_linked]
    exact hb.nodup
  byName_eq := by
    rw [sheetNames_linked]
    exact hb.byName_eq
  tables := by
    rw [tables_linked]
    exact List.forall_mem_map.mpr fun t ht => (hb.tables t ht).mapReferences_of_keys _ (h t ht _)
  sheets_le := by
    have hsize : (b.linked assets).size = b.size := by simp [size, Container.linked]
    rw [hsize]
    exact hb.sheets_le
  rows_le := by
    rw [tables_linked]
    refine List.forall_mem_map.mpr fun t ht => ?_
    rw [AnyTable.size_linked]
    exact hb.rows_le t ht

end Container

/-! ### References -/

/-- A linked reference to a row of a container: unresolved if it is to nothing, else resolved
exactly if there is such a row, and then to the first one. -/
structure Container.LinksRow (b : Container c) (r : TargetRef) : Prop where
  of_empty : r.ref.key = "" → r.ref.resolved = none
  resolved_iff : r.ref.key ≠ "" → (r.ref.resolved.isSome ↔ b.HasKey r.target r.ref.key)
  firstRow : ∀ k, r.ref.resolved = some k → b.FirstRow r.target r.ref.key k

/-- A linked reference to an asset: it has the handle that is found for it. -/
structure LinksAsset (assets : AssetResolver) (a : AssetRef) : Prop where
  of_empty : a.path = "" → a.handle = none
  handle_eq : a.path ≠ "" → a.handle = assets a.path a.sub

namespace Container

variable {b : Container c} {assets : AssetResolver}

/-- What the linker of a container makes of a reference to a row is right afterwards. -/
theorem linksRow_linked (hb : b.Indexed) (h : b.KeepsKeys) (r : TargetRef) :
    (b.linked assets).LinksRow ((b.linker assets).refMap.targetRef r) := by
  obtain ⟨target, key, resolved⟩ := r
  have hempty : (⟨key, resolved⟩ : SheetRef).isEmpty = true ↔ key = "" := by
    rw [SheetRef.isEmpty, String.isEmpty_iff]
  -- the index was made before linking, and linking has left the keys
  have hfound : ((b.linker assets).refMap.targetRef ⟨target, key, resolved⟩).ref.resolved =
      if key = "" then none else (RowIndex.ofContainer b).lookup? target key := by
    rw [RefMap.targetRef]
    change (if (⟨key, resolved⟩ : SheetRef).isEmpty = true then none else _) = _
    simp only [hempty]
    rfl
  refine ⟨fun hkey => ?_, fun hkey => ?_, fun k hk => ?_⟩
  · exact hfound.trans (if_pos hkey)
  · have hlookup := hfound.trans (if_neg hkey)
    rw [hlookup, RowIndex.isSome_lookup? hb, hasKey_linked h]
    rfl
  · rw [hfound] at hk
    split at hk
    · cases hk
    · exact (RowIndex.firstRow_of_lookup? hb hk).linked h

end Container

/-- What a linker makes of an unresolved reference to an asset is right. -/
theorem linksAsset_linked (l : Linker) {a : AssetRef} (h : a.handle = none) :
    LinksAsset l.asset (l.linkedAsset a) := by
  have hempty : a.isEmpty = true ↔ a.path = "" := by rw [AssetRef.isEmpty, String.isEmpty_iff]
  rw [Linker.linkedAsset]
  split
  · next hpath => exact ⟨fun _ => h, fun hne => absurd (hempty.mp hpath) hne⟩
  · next hpath => exact ⟨fun heq => absurd (hempty.mpr heq) hpath, fun _ => rfl⟩

/-- The rows of a linked table that was made of raw rows without references hold right references
only, save in rows that a converter writes. -/
theorem Container.everyRef_linked {b : Container c} {assets : AssetResolver} (hb : b.Indexed)
    (h : b.KeepsKeys) {ms : Members} (hms : ms.Lawful) (d : RecordDecl) {n : Naming} {raw : RawRow}
    {row : ms.El} (hraw : ∃ json, RawRow.ofJson json = .ok raw) (hread : ms.read n raw = .ok row) :
    ms.EveryUnconvertedRef (b.linked assets).LinksRow (LinksAsset assets)
      (ms.relinked (b.linker assets) d row) := by
  obtain ⟨json, hjson⟩ := hraw
  refine ms.everyUnconvertedRef_relinked _ d hms.keys hms.converters hms.columns.2 hms.names
    hread ?_
  exact Members.everyRef_of_read (fun _ _ => linksRow_linked hb h _)
    (fun _ _ => linksAsset_linked (b.linker assets) rfl) (Value.everyRef_cell_ofJson hjson) hread

/-! ### Bakes -/

namespace Baker

theorem linkTables_eq_map (l : Linker) (reports : List SheetReport) (ts : List (AnyTable c)) :
    (linkTables l reports ts).1 = ts.map (AnyTable.linked l) := by
  induction ts generalizing reports with
  | nil => rfl
  | cons t rest ih =>
    rw [linkTables, List.map_cons, ← ih]
    rfl

/-- A bake links the container that it has read. -/
theorem link_container (b : Baker c) (s : BakeState c) :
    (b.link s).container = s.container.linked b.assets := by
  rw [Container.linked, ← linkTables_eq_map]
  rfl

/-- Every row of a linked table is a row that was read, with its references linked. -/
theorem exists_of_mem_linked {b : Baker c} {d : SheetDecl c} {l : Linker}
    {row : (c.type d.id).Row} (h : row ∈ ((b.ingested d).linked l).table.rows.toList) :
    ∃ r ∈ (b.ingested d).table.rows.toList,
      (c.type d.id).record.members.relinked l (c.type d.id).record.decl r = row ∧
        ∃ raw ∈ b.rawRows d.name, (c.type d.id).record.read b.schema.naming raw = .ok r := by
  have hrows := Table.rows_mapReferences l (b.ingested d).table
  obtain ⟨r, hr, hrow⟩ := List.mem_map.mp (hrows ▸ h)
  exact ⟨r, hr, hrow, exists_of_mem_ingested hr⟩

/-- Raw rows that all convert, to rows with keys of their own, give these rows with their references
replaced. -/
theorem rows_linked {b : Baker c} {d : SheetDecl c} {rows : List (c.type d.id).Row}
    (hms : (c.type d.id).record.members.Lawful) (hplain : (c.type d.id).record.members.PlainRows)
    (hrows : List.Forall₂ (fun raw row => (c.type d.id).record.read b.schema.naming raw = .ok row ∧
      isValidKey ((c.type d.id).key row) = true) (b.rawRows d.name) rows)
    (hnodup : (rows.map (c.type d.id).key).Nodup) (l : Linker) :
    ((b.ingested d).linked l).table.rows.toList =
      rows.map ((c.type d.id).record.members.mapRefs l.refMap) := by
  have hingested : (b.ingested d).table.rows.toList = rows := Table.rows_ingest hrows hnodup
  have hlinked := Table.rows_mapReferences l (b.ingested d).table
  rw [hingested] at hlinked
  refine hlinked.trans (List.map_congr_left fun row hrow => ?_)
  obtain ⟨raw, -, hread⟩ := exists_of_mem_ingested (hingested.symm ▸ hrow)
  exact hms.relinked_eq_mapRefs l hplain _ hread

/-- Whatever the references of the baked sheets are linked to, their rows keep their keys. -/
def KeepsKeys (b : Baker c) : Prop := ∀ p ∈ b.bakedSheets, (b.ingested p.1).KeepsKeys

/-- So it is if no ids depend on what references are resolved to. -/
theorem keepsKeys_of_resolutionBlind {b : Baker c}
    (hids : ∀ d ∈ b.schema.sheets, (c.type d.id).ResolutionBlind) : b.KeepsKeys :=
  fun p hp => (hids p.1 (mem_of_mem_sheetFiles hp)).keepsKeys

/-- It depends on the schema and the source only. -/
theorem KeepsKeys.congr {b b' : Baker c} (h : b.KeepsKeys) (hschema : b'.schema = b.schema)
    (hsource : b'.source = b.source) : b'.KeepsKeys := by
  intro p hp
  rw [ingested_congr hschema hsource]
  exact h p (bakedSheets_congr hschema ▸ hp)

end Baker

end TypedSheets

/-! ## What a bake saves -/

namespace TypedSheets

variable {c : Catalog}

/-! ### Keys that are gone -/

/-- The removed keys are the kept ones that are not there any more. -/
theorem mem_removed_diffKeys {left current : List String} (h : left.Nodup) {key : String} :
    key ∈ (diffKeys left current).removed ↔ key ∈ left ∧ key ∉ current := by
  induction current generalizing left with
  | nil => simp [diffKeys]
  | cons first rest ih =>
    rw [diffKeys]
    split
    · change key ∈ (diffKeys (left.erase first) rest).removed ↔ _
      rw [ih (h.erase first), h.mem_erase_iff, List.mem_cons, not_or]
      exact ⟨fun ⟨⟨hne, hleft⟩, hrest⟩ => ⟨hleft, hne, hrest⟩,
        fun ⟨hleft, hne, hrest⟩ => ⟨⟨hne, hleft⟩, hrest⟩⟩
    · next hfirst =>
      change key ∈ (diffKeys left rest).removed ↔ _
      rw [ih h, List.mem_cons, not_or]
      refine ⟨fun ⟨hleft, hrest⟩ => ⟨hleft, ?_, hrest⟩, fun ⟨hleft, _, hrest⟩ => ⟨hleft, hrest⟩⟩
      rintro rfl
      exact hfirst (List.contains_iff_mem.mpr hleft)

/-! ### Parts of a plan -/

theorem forall₂_zipWith {α β γ δ : Type} {R : α → β → Prop} {S : α → γ → Prop} {f : δ → β → γ}
    {g : α → δ} {xs : List α} {ys : List β} (h : List.Forall₂ R xs ys)
    (hf : ∀ x y, R x y → S x (f (g x) y)) : List.Forall₂ S xs (List.zipWith f (xs.map g) ys) := by
  induction h with
  | nil => exact .nil
  | cons hxy _ ih => exact .cons (hf _ _ hxy) ih

theorem map_eq_map_of_forall₂ {α β γ : Type} {R : α → β → Prop} {f : α → γ} {g : β → γ}
    {xs : List α} {ys : List β} (h : List.Forall₂ R xs ys) (hfg : ∀ x y, R x y → f x = g y) :
    xs.map f = ys.map g := by
  induction h with
  | nil => rfl
  | cons hxy _ ih => rw [List.map_cons, List.map_cons, hfg _ _ hxy, ih]

theorem exists_mem_of_forall₂ {α β : Type} {R : α → β → Prop} {xs : List α} {ys : List β}
    (h : List.Forall₂ R xs ys) {x : α} (hx : x ∈ xs) : ∃ y ∈ ys, R x y :=
  exists_of_mem_forall₂ h.flip hx

/-- What a bake saves of a sheet. -/
structure SheetPlan.Of (A : String → Except BakeError (List String) → Prop) (b : Baker c)
    (l : Linker) (sheet : SheetDecl c × String) (p : SheetPlan) : Prop where
  name_eq : p.name = sheet.1.name
  fileName_eq : p.fileName = sheet.2
  record_eq : p.record = sheet.1.recordName
  rows_eq : p.rows = ((b.ingested sheet.1).linked l).table.encode
  removed : ∃ kept, A sheet.2 (.ok kept) ∧
    p.removed = (diffKeys kept (b.ingested sheet.1).keys).removed

/-- The rows of a table by key, as they are kept. -/
def AnyTable.kept (t : AnyTable c) : KeptRows := Entries.ofList compareText t.table.encode

namespace BakeState

variable {A : String → Except BakeError (List String) → Prop} {b : Baker c} {s : BakeState c}
  {sheets : List (SheetDecl c × String)}

theorem Holds.tables_link (h : s.Holds A b sheets) : (b.link s).container.tables.toList =
    sheets.map fun p => (b.ingested p.1).linked (s.container.linker b.assets) := by
  rw [Baker.link_container, Container.tables_linked, h.tables_eq, List.map_map]
  rfl

/-- Every table has its file and keys. -/
theorem Holds.length_baked (h : s.Holds A b sheets) :
    s.baked.length = (b.link s).container.size := by
  rw [Container.size, ← Array.length_toList, h.tables_link, List.length_map, h.baked.length_eq]

/-- A plan has a part for every sheet. -/
theorem Holds.plan_sheets (h : s.Holds A b sheets) :
    List.Forall₂ (SheetPlan.Of A b (s.container.linker b.assets)) sheets
      (b.plan (b.link s).container s.baked).sheets := by
  change List.Forall₂ _ sheets (List.zipWith Baker.sheetPlan _ _)
  rw [h.tables_link]
  refine forall₂_zipWith h.baked fun sheet p hp => ?_
  obtain ⟨hfile, kept, hkept, hremoved⟩ := hp
  exact ⟨b.name_ingested sheet.1, hfile, rfl, rfl, kept, hkept, hremoved⟩

theorem Holds.map_fileName_plan (h : s.Holds A b sheets) :
    (b.plan (b.link s).container s.baked).sheets.map SheetPlan.fileName = sheets.map Prod.snd :=
  (map_eq_map_of_forall₂ h.plan_sheets fun _ _ hp => hp.fileName_eq.symm).symm

theorem Holds.keepsKeys (h : s.Holds A b b.bakedSheets) (hkeys : b.KeepsKeys) :
    s.container.KeepsKeys := by
  rw [Container.KeepsKeys, h.tables_eq]
  exact List.forall_mem_map.mpr hkeys

section Saved

variable {store store' : ArtifactStore}
  (h : s.Holds (fun file answer => answer = store.rowKeys file) b sheets) (hstore : store.Sorted)
  (hsaved : ArtifactStore.Saved (b.plan (b.link s).container s.baked) store store')

include h hstore hsaved

/-- If the kept keys were compared that are in the store, and linking leaves the keys of a sheet,
its rows are all that is kept of it after a save. -/
theorem Holds.table?_of_keys_linked {sheet : SheetDecl c × String} (hsheet : sheet ∈ sheets)
    (hkeys : ((b.ingested sheet.1).linked (s.container.linker b.assets)).keys =
      (b.ingested sheet.1).keys) : store'.table? (ArtifactStore.rowsTable sheet.2) =
      some (.rows ((b.ingested sheet.1).linked (s.container.linker b.assets)).kept) := by
  obtain ⟨p, hp, hof⟩ := exists_mem_of_forall₂ h.plan_sheets hsheet
  obtain ⟨es, hes, htable⟩ := hsaved.sheet p hp
  obtain ⟨kept, hkept, hremoved⟩ := hof.removed
  rw [hof.fileName_eq] at hes htable
  have hrows : p.rows.map Prod.fst = (b.ingested sheet.1).keys := by
    rw [hof.rows_eq, Table.map_fst_encode]
    exact hkeys
  have hsorted := hstore.entries hes
  -- what was compared is what is kept
  have hcompared : kept = es.map Prod.fst := by
    rw [ArtifactStore.rowKeys, hes] at hkept
    exact Except.ok.inj hkept
  rw [htable, ArtifactStore.updated_eq_ofList hsorted, hof.rows_eq]
  · rfl
  · rw [hrows]
    exact (b.indexed_ingested sheet.1).nodup
  · intro key hkey hgone
    rw [hremoved, hcompared]
    exact (mem_removed_diffKeys hsorted.nodup).mpr ⟨hkey, hrows ▸ hgone⟩

end Saved

end BakeState

end TypedSheets
