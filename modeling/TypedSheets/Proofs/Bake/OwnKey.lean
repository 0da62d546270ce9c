import TypedSheets.Proofs.Bake.Serve
import TypedSheets.Proofs.Text.Parts

/-!
# References made of ids

The key of a row is the text of its id as it stands. A reference that is made of the id drops the
white space around the text, so it leads to the row that has the text without white space. That is
the row itself if its id has no white space around it, as all ids have that are no texts. The row of
any other id is not found by its id, or another row is found in its place.

## Main results

* `RowIndex.lookup?_ofKey` — where a reference leads that is made of a key
* `Baker.own_reference_found_iff` — which rows of a bake are found by their own id
* `Baker.own_reference_missed` — a row that is not found, and one that another is found for
-/

namespace TypedSheets

theorem IdType.key_int (k : IntKind) (x : k.El) : (IdType.int k).key x = Number.intText x.val := rfl

/-- Only ids that are texts can have white space around their key. -/
theorem IdType.trimmed_key {t : IdType} (h : t ≠ .text) (x : t.El) : Text.Trimmed (t.key x) := by
  cases t with
  | bool =>
    change Text.Trimmed (Value.boolText x)
    rw [← Text.trim_eq_self_iff]
    cases (x : Bool) <;> decide
  | int k =>
    rw [IdType.key_int k x, ← Text.trim_eq_self_iff]
    exact Text.trim_intText _
  | text => exact absurd rfl h

/-! ### References in a container -/

variable {c : Catalog}

/-- No row has two keys. -/
theorem Container.FirstRow.key_unique {b : Container c} {target key key' : String} {k : RowKey}
    (h : b.FirstRow target key k) (h' : b.FirstRow target key' k) : key = key' := by
  obtain ⟨⟨t, ht, -, hkey⟩, -⟩ := h
  obtain ⟨⟨t', ht', -, hkey'⟩, -⟩ := h'
  obtain rfl := Option.some.inj (ht.symm.trans ht')
  exact Option.some.inj (hkey.symm.trans hkey')

theorem Container.hasKey_of_mem {b : Container c} {t : AnyTable c} (ht : t ∈ b.tables.toList)
    {row : (c.type t.id).Row} (hrow : row ∈ t.table.rows.toList) :
    b.HasKey t.recordName ((c.type t.id).key row) :=
  ⟨t, ht, rfl, List.mem_map_of_mem hrow⟩

/-- A reference that is made of a key leads to the first row of the key without white space around
it, if there is one. This is a row of the key itself exactly if the key has no white space around
it, given that there is such a row. -/
theorem RowIndex.lookup?_ofKey {b : Container c} (h : b.Indexed) {target key : String}
    (hkey : b.HasKey target key) :
    (((ofContainer b).lookup? target (SheetRef.ofKey key).key).isSome ↔
        b.HasKey target (Text.trim key)) ∧
      (∀ k, (ofContainer b).lookup? target (SheetRef.ofKey key).key = some k →
        b.FirstRow target (Text.trim key) k) ∧
      ((∃ k, (ofContainer b).lookup? target (SheetRef.ofKey key).key = some k ∧
        b.FirstRow target key k) ↔ Text.Trimmed key) := by
  have hfirst : ∀ k, (ofContainer b).lookup? target (SheetRef.ofKey key).key = some k →
      b.FirstRow target (Text.trim key) k := fun k hk => firstRow_of_lookup? h hk
  refine ⟨isSome_lookup? h, hfirst, ?_⟩
  -- the row that is found has the trimmed key, so it is the right one exactly if trimming changes
  -- nothing
  rw [← Text.trim_eq_self_iff]
  constructor
  · rintro ⟨k, hk, hrow⟩
    exact (hfirst k hk).key_unique hrow
  · intro htrim
    have hfound : ((ofContainer b).lookup? target (Text.trim key)).isSome :=
      (isSome_lookup? h).mpr (by rwa [htrim])
    obtain ⟨k, hk⟩ := Option.isSome_iff_exists.mp hfound
    have hrow := hfirst k hk
    rw [htrim] at hrow
    exact ⟨k, hk, hrow⟩

/-! ### References to the rows of a bake -/

namespace Baker

variable {b : Baker c} {store store' : ArtifactStore} {out : BakeOutput c}

/-- After a bake that succeeds, a reference that is made of the id of a row leads to a row with that
key exactly if there is no white space around the key. So it is if the ids are no texts. Otherwise
it leads to the first row whose key is the text without the white space, if there is one. -/
theorem own_reference_found_iff (hids : ∀ d ∈ b.schema.sheets, (c.type d.id).ResolutionBlind)
    (h : b.bake.run store = (.ok out, store')) :
    ∀ t ∈ out.container.tables.toList, ∀ row ∈ t.table.rows.toList,
      ∀ key, (c.type t.id).key row = key → ∀ found,
        (RowIndex.ofContainer out.container).lookup? t.recordName (SheetRef.ofKey key).key = found →
          ((∃ k, found = some k ∧ out.container.FirstRow t.recordName key k) ↔
            Text.Trimmed key) ∧
          ((c.type t.id).id ≠ .text → Text.Trimmed key) ∧
          (found.isSome ↔ out.container.HasKey t.recordName (Text.trim key)) ∧
          ∀ k, found = some k → out.container.FirstRow t.recordName (Text.trim key) k := by
  rintro t ht row hrow _ rfl _ rfl
  obtain ⟨hsome, hfirst, hown⟩ :=
    RowIndex.lookup?_ofKey (indexed_of_run (keepsKeys_of_resolutionBlind hids) h)
      (Container.hasKey_of_mem ht hrow)
  exact ⟨hown, fun hid => IdType.trimmed_key hid _, hsome, hfirst⟩

/-- The two quests are found by their ids. -/
theorem own_reference_found_iff_quests : ∃ out store t row k,
    Game.questBaker.bake.run .empty = (.ok out, store) ∧ t ∈ out.container.tables.toList ∧
      row ∈ t.table.rows.toList ∧
      (RowIndex.ofContainer out.container).lookup? t.recordName
        (SheetRef.ofKey ((Game.catalog.type t.id).key row)).key = some k ∧
      out.container.FirstRow t.recordName ((Game.catalog.type t.id).key row) k := by
  obtain ⟨out, store, hrun⟩ := Game.exists_run_questBaker
  obtain ⟨l, htables⟩ := tables_of_run hrun
  have hids : ∀ d ∈ Game.questBaker.schema.sheets, (Game.catalog.type d.id).ResolutionBlind :=
    Game.resolutionBlind_questSheets
  have ht : (Game.questBaker.ingested Game.questSheet).linked l ∈ out.container.tables.toList := by
    rw [htables, Game.bakedSheets_questBaker]
    exact List.mem_cons_self
  have hkeys : ((Game.questBaker.ingested Game.questSheet).linked l).keys = ["1", "2"] :=
    (AnyTable.keys_linked (hids Game.questSheet List.mem_cons_self)).trans
      Game.keys_ingested_questSheet
  have hmem : "1" ∈ ((Game.questBaker.ingested Game.questSheet).linked l).keys := by
    rw [hkeys]
    exact List.mem_cons_self
  obtain ⟨row, hrow, -⟩ := List.mem_map.mp hmem
  obtain ⟨hown, htrimmed, -⟩ := own_reference_found_iff hids hrun _ ht row hrow _ rfl _ rfl
  obtain ⟨k, hk, hfirst⟩ := hown.mpr (htrimmed fun hid => by cases hid)
  exact ⟨out, store, _, row, k, hrun, ht, hrow, hk, hfirst⟩

/-! ### Ids with white space around them -/

end Baker

namespace Game

/-- A sheet of items. -/
def itemSheet : SheetDecl catalog := ⟨"Items", ⟨1, by decide⟩⟩

/-- A bake of items that have nothing but an id. -/
def itemBaker (ids : List String) : Baker catalog where
  schema := ⟨[itemSheet], .pascal, false⟩
  source := fun _ => .ok (some (ids.map fun id => [("Id", .text id)]))
  assets := .none
  cancelled := .never
  now := .epoch

/-- An item that has nothing but an id. -/
def itemRow (id : String) : item.Row :=
  (id, "", IntKind.u32.zero, (⟨0, by decide⟩ : Fin 3), AssetRef.empty, ())

theorem resolutionBlind_item : item.ResolutionBlind :=
  TableType.PlainId.resolutionBlind fun _ _ h => h.1 trivial

theorem resolutionBlind_itemSheets (ids : List String) :
    ∀ d ∈ (itemBaker ids).schema.sheets, (catalog.type d.id).ResolutionBlind :=
  List.forall_mem_singleton.mpr resolutionBlind_item

theorem forall₂_itemRows {ids : List String} (h : ∀ id ∈ ids, Text.isBlank id = false) :
    List.Forall₂ (fun raw row => item.record.read .pascal raw = .ok row ∧
      isValidKey (item.key row) = true) ((itemBaker ids).rawRows "Items") (ids.map itemRow) := by
  change List.Forall₂ _ (ids.map fun id => [("Id", Value.text id)]) _
  rw [List.forall₂_map_left_iff, List.forall₂_map_right_iff, List.forall₂_same]
  intro id hid
  refine ⟨rfl, ?_⟩
  change (!Text.isBlank id) = true
  rw [h id hid]
  rfl

theorem keys_ingested_itemBaker {ids : List String} (h : ∀ id ∈ ids, Text.isBlank id = false)
    (hnodup : ids.Nodup) : ((itemBaker ids).ingested itemSheet).keys = ids := by
  have hkeys : (ids.map itemRow).map item.key = ids := by
    rw [List.map_map]
    exact List.map_id _
  exact (@Baker.keys_ingested catalog (itemBaker ids) itemSheet (ids.map itemRow)
    (forall₂_itemRows h) (hkeys.symm ▸ hnodup)).trans hkeys

theorem bakeable_itemBaker {ids : List String} (h : ∀ id ∈ ids, Text.isBlank id = false)
    (hnodup : ids.Nodup) (hlength : ids.length ≤ RowKey.maxRow.toNat + 1) :
    (itemBaker ids).Bakeable where
  named := List.forall_mem_singleton.mpr (by decide)
  files_nodup := List.nodup_singleton "Items"
  names_nodup := List.nodup_singleton "Items"
  source := List.forall_mem_singleton.mpr ⟨_, rfl⟩
  sheets_le := show 1 ≤ maxSheets by decide
  rows_le := by
    refine List.forall_mem_singleton.mpr ?_
    rw [AnyTable.size, ← Table.length_keys]
    exact (congrArg List.length (keys_ingested_itemBaker h hnodup)).trans_le hlength

/-- The bake of items has one table, and its keys are the ids as they stand. -/
theorem exists_run_itemBaker (ids : List String) (h : ∀ id ∈ ids, Text.isBlank id = false)
    (hnodup : ids.Nodup) (hlength : ids.length ≤ RowKey.maxRow.toNat + 1) :
    ∃ out store t, (itemBaker ids).bake.run .empty = (.ok out, store) ∧
      out.container.Indexed ∧ out.container.tables.toList = [t] ∧ t.recordName = "Item" ∧
      t.keys = ids := by
  obtain ⟨out, store, hrun⟩ := (bakeable_itemBaker h hnodup hlength).exists_run rfl
    ArtifactStore.opensRows_empty ⟨[], rfl⟩
  obtain ⟨l, htables⟩ := Baker.tables_of_run hrun
  have hkeys := AnyTable.keys_linked (l := l) (t := (itemBaker ids).ingested itemSheet)
    resolutionBlind_item
  have hkeeps : (itemBaker ids).KeepsKeys :=
    Baker.keepsKeys_of_resolutionBlind (resolutionBlind_itemSheets ids)
  exact ⟨out, store, _, hrun, Baker.indexed_of_run hkeeps hrun, htables, rfl,
    hkeys.trans (keys_ingested_itemBaker h hnodup)⟩

end Game

/-- A row is found by a key that its table has. -/
theorem AnyTable.exists_row_of_key {t : AnyTable c} {key : String} (h : key ∈ t.keys) :
    ∃ row ∈ t.table.rows.toList, (c.type t.id).key row = key :=
  List.mem_map.mp h

/-- An item whose id has white space around it is not found by its id. Where another item has the
text without the white space for an id, that one is found in its place. -/
theorem Baker.own_reference_missed :
    (∃ out store t row, (Game.itemBaker [" sword "]).bake.run .empty = (.ok out, store) ∧
      t ∈ out.container.tables.toList ∧ row ∈ t.table.rows.toList ∧
      (RowIndex.ofContainer out.container).lookup? t.recordName
        (SheetRef.ofKey ((Game.catalog.type t.id).key row)).key = none) ∧
    ∃ out store t row k, (Game.itemBaker [" sword ", "sword"]).bake.run .empty = (.ok out, store) ∧
      t ∈ out.container.tables.toList ∧ row ∈ t.table.rows.toList ∧
      (RowIndex.ofContainer out.container).lookup? t.recordName
        (SheetRef.ofKey ((Game.catalog.type t.id).key row)).key = some k ∧
      ¬ out.container.FirstRow t.recordName ((Game.catalog.type t.id).key row) k := by
  have htrim : Text.trim " sword " = "sword" := by decide
  constructor
  · obtain ⟨out, store, t, hrun, hindexed, htables, hname, hkeys⟩ :=
      Game.exists_run_itemBaker [" sword "] (by decide) (by decide) (by decide)
    obtain ⟨row, hrow, hkey⟩ := AnyTable.exists_row_of_key (hkeys ▸ List.mem_cons_self)
    refine ⟨out, store, t, row, hrun, htables ▸ List.mem_cons_self, hrow, ?_⟩
    -- the only key is another one than that of the reference
    rw [← Option.not_isSome_iff_eq_none, RowIndex.isSome_lookup? hindexed, hkey]
    rintro ⟨t', ht', -, hmem⟩
    rw [htables, List.mem_singleton] at ht'
    rw [ht', hkeys, List.mem_singleton, SheetRef.ofKey, htrim] at hmem
    exact absurd hmem (by decide)
  · obtain ⟨out, store, t, hrun, hindexed, htables, hname, hkeys⟩ :=
      Game.exists_run_itemBaker [" sword ", "sword"] (by decide) (by decide) (by decide)
    obtain ⟨row, hrow, hkey⟩ := AnyTable.exists_row_of_key (hkeys ▸ List.mem_cons_self)
    have ht : t ∈ out.container.tables.toList := htables ▸ List.mem_cons_self
    obtain ⟨hsome, hfirst, -⟩ :=
      RowIndex.lookup?_ofKey hindexed (Container.hasKey_of_mem ht hrow)
    have hother : out.container.HasKey t.recordName "sword" :=
      ⟨t, ht, rfl, hkeys ▸ List.mem_cons_of_mem _ List.mem_cons_self⟩
    rw [hkey, htrim] at hfirst hsome
    obtain ⟨k, hk⟩ := Option.isSome_iff_exists.mp (hsome.mpr hother)
    refine ⟨out, store, t, row, k, hrun, ht, hrow, by rw [hkey]; exact hk, ?_⟩
    rw [hkey]
    intro hown
    exact absurd (hown.key_unique (hfirst k hk)) (by decide)

end TypedSheets
