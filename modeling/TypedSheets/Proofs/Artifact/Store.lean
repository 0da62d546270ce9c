import TypedSheets.Artifact.Store
import TypedSheets.Proofs.Sorted

/-!
# What a save leaves in a store

A save rewrites the table of every sheet in its plan, drops the other tables of rows, writes the
manifest and touches nothing else.

## Main definitions

* `ArtifactStore.Sorted` — tables and the rows in them are sorted by name and key
* `ArtifactStore.OpensRows` — the rows of every sheet can be opened
* `ArtifactStore.Saved` — what a store holds after a save, compared with before

## Main results

* `ArtifactStore.saved_of_save`, `ArtifactStore.exists_save` — what a save does, and when it is done
* `ArtifactStore.Sorted.save` — a store stays sorted
* `ArtifactStore.ext_table?` — sorted stores with the same tables are the same
-/

namespace TypedSheets

namespace ArtifactStore

/-! ### Names of tables -/

theorem isRowsTable_rowsTable (file : String) : isRowsTable (rowsTable file) = true := by
  rw [isRowsTable, rowsTable, String.toList_append, List.isPrefixOf_iff_prefix]
  exact List.prefix_append _ _

theorem isRowsTable_manifestTable : isRowsTable manifestTable = false := by decide

theorem rowsTable_injective {file file' : String} (h : rowsTable file = rowsTable file') :
    file = file' := by
  rw [rowsTable, rowsTable, ← String.toList_inj, String.toList_append, String.toList_append] at h
  exact String.toList_inj.mp (List.append_cancel_left h)

/-! ### Tables -/

variable {s s' : ArtifactStore} {name other file : String}

/-- The tables of a store are sorted by name, and the rows in each by key. -/
structure Sorted (s : ArtifactStore) : Prop where
  names : Increasing compareText (s.tables.map Prod.fst)
  keys : ∀ name es, s.table? name = some (.rows es) → Increasing compareText (es.map Prod.fst)

theorem sorted_empty : empty.Sorted := ⟨increasing_nil, fun _ _ h => by cases h⟩

/-- Sorted stores with the same tables are the same. -/
theorem ext_table? (h : s.Sorted) (h' : s'.Sorted)
    (htable : ∀ name, s.table? name = s'.table? name) :
    s = s' := by
  obtain ⟨tables⟩ := s
  obtain ⟨tables'⟩ := s'
  congr 1
  exact Entries.ext_get? h.names h'.names htable

theorem entries_eq_ok {es : KeptRows} (h : s.entries name = .ok es) :
    s.table? name = some (.rows es) ∨ (s.table? name = none ∧ es = []) := by
  rw [entries] at h
  split at h
  · next hnone =>
    cases h
    exact Or.inr ⟨hnone, rfl⟩
  · next hrows =>
    cases h
    exact Or.inl hrows
  · cases h

theorem entries_of_table? {es : KeptRows} (h : s.table? name = some (.rows es)) :
    s.entries name = .ok es := by
  rw [entries, h]

theorem entries_of_table?_none (h : s.table? name = none) : s.entries name = .ok [] := by
  rw [entries, h]

theorem entries_congr (h : s.table? name = s'.table? name) : s.entries name = s'.entries name := by
  rw [entries, entries, h]

theorem Sorted.entries {es : KeptRows} (hs : s.Sorted) (h : s.entries name = .ok es) :
    Increasing compareText (es.map Prod.fst) := by
  rcases entries_eq_ok h with hrows | ⟨-, rfl⟩
  · exact hs.keys name es hrows
  · exact increasing_nil

theorem table?_setEntries (s : ArtifactStore) (name other : String) (es : KeptRows) :
    (s.setEntries name es).table? other =
      if other = name then some (.rows es) else s.table? other :=
  table?_setTable s name other (.rows es)

theorem Sorted.setEntries {es : KeptRows} (hs : s.Sorted)
    (hes : Increasing compareText (es.map Prod.fst)) : (s.setEntries name es).Sorted := by
  refine ⟨Entries.increasing_insert hs.names, fun name' es' h => ?_⟩
  rw [table?_setEntries] at h
  split at h
  · cases h
    exact hes
  · exact hs.keys name' es' h

theorem rowKeys_eq_ok_iff {keys : List String} : s.rowKeys file = .ok keys ↔
    ∃ es, s.entries (rowsTable file) = .ok es ∧ keys = es.map Prod.fst := by
  rw [rowKeys]
  cases s.entries (rowsTable file) with
  | error e => simp [Except.map]
  | ok es => simp [Except.map, eq_comm]

theorem Sorted.nodup_rowKeys {keys : List String} (hs : s.Sorted)
    (h : s.rowKeys file = .ok keys) : keys.Nodup := by
  obtain ⟨es, hes, rfl⟩ := rowKeys_eq_ok_iff.mp h
  exact (hs.entries hes).nodup

/-! ### Rows of a sheet -/

section Updated

variable {es : KeptRows} {removed : List String} {rows : List (String × List UInt8)}

theorem increasing_updated (h : Increasing compareText (es.map Prod.fst)) :
    Increasing compareText ((updated es removed rows).map Prod.fst) :=
  Entries.increasing_foldl_insert (Entries.increasing_foldl_erase h)

/-- Every row that is written is there, whatever was there before and whatever was removed. -/
theorem get?_updated (hrows : (rows.map Prod.fst).Nodup) {key : String} {bytes : List UInt8}
    (h : (key, bytes) ∈ rows) :
    Entries.get? compareText key (updated es removed rows) = some bytes :=
  Entries.get?_foldl_insert hrows h _

/-- If all that is not written is removed, what was there before does not matter. -/
theorem updated_eq_ofList (hes : Increasing compareText (es.map Prod.fst))
    (hrows : (rows.map Prod.fst).Nodup)
    (h : ∀ key ∈ es.map Prod.fst, key ∉ rows.map Prod.fst → key ∈ removed) :
    updated es removed rows = Entries.ofList compareText rows := by
  refine Entries.ext_get? (increasing_updated hes) (Entries.increasing_ofList rows) fun key => ?_
  by_cases hkey : key ∈ rows.map Prod.fst
  · obtain ⟨⟨key', bytes⟩, hmem, rfl⟩ := List.mem_map.mp hkey
    rw [get?_updated hrows hmem, Entries.ofList, Entries.get?_foldl_insert hrows hmem]
  · rw [updated, Entries.ofList, Entries.get?_foldl_insert_of_notMem hkey,
      Entries.get?_foldl_insert_of_notMem hkey, Entries.get?_foldl_erase, Entries.get?_nil]
    -- a key that is not written was removed, or was never there
    split
    · rfl
    · next hkept =>
      cases hget : Entries.get? compareText key es with
      | none => rfl
      | some bytes =>
        have hmem : (key, bytes) ∈ es := (Entries.mem_iff_get? hes).mpr hget
        exact absurd (h key (List.mem_map_of_mem hmem) hkey) hkept

/-- The rows of keys of rows that were written are these rows. -/
theorem rowsIn_updated {kept : List (String × List UInt8)} (hrows : (rows.map Prod.fst).Nodup)
    (hkept : kept ⊆ rows) (table : String) :
    rowsIn table (updated es removed rows) (kept.map Prod.fst) = .ok kept := by
  have hget : ∀ r ∈ kept, Entries.get? compareText r.1 (updated es removed rows) = some r.2 :=
    fun r hr => get?_updated hrows (hkept hr)
  clear hkept
  induction kept with
  | nil => rfl
  | cons r rest ih =>
    rw [List.map_cons, rowsIn, hget r List.mem_cons_self,
      ih fun r' hr' => hget r' (List.mem_cons_of_mem _ hr')]

end Updated

/-! ### Sheets -/

theorem writeSheets_table? {ps : List SheetPlan} (hfiles : (ps.map SheetPlan.fileName).Nodup)
    (h : s.writeSheets ps = .ok s') :
    (∀ p ∈ ps, ∃ es, s.entries (rowsTable p.fileName) = .ok es ∧
        s'.table? (rowsTable p.fileName) = some (.rows (updated es p.removed p.rows))) ∧
      ∀ name, (∀ p ∈ ps, name ≠ rowsTable p.fileName) → s'.table? name = s.table? name := by
  induction ps generalizing s with
  | nil =>
    cases h
    exact ⟨fun p hp => absurd hp List.not_mem_nil, fun _ _ => rfl⟩
  | cons p rest ih =>
    obtain ⟨hfirst, hrest⟩ := List.nodup_cons.mp hfiles
    rw [writeSheets] at h
    split at h
    · cases h
    · next es hes =>
      obtain ⟨hwritten, hother⟩ := ih hrest h
      -- files differ, so no other sheet touches the first one's table
      have hne : ∀ q ∈ rest, rowsTable q.fileName ≠ rowsTable p.fileName := by
        intro q hq heq
        exact hfirst (rowsTable_injective heq ▸ List.mem_map_of_mem hq)
      refine ⟨List.forall_mem_cons.mpr ⟨⟨es, hes, ?_⟩, fun q hq => ?_⟩, fun name hname => ?_⟩
      · rw [hother _ fun q hq => (hne q hq).symm, table?_setEntries, if_pos rfl]
      · obtain ⟨es', hes', htable⟩ := hwritten q hq
        refine ⟨es', ?_, htable⟩
        rw [← hes']
        refine entries_congr ?_
        rw [table?_setEntries, if_neg (hne q hq)]
      · rw [hother name fun q hq => hname q (List.mem_cons_of_mem _ hq),
          table?_setEntries, if_neg (hname p List.mem_cons_self)]

theorem Sorted.writeSheets {ps : List SheetPlan} (hs : s.Sorted) (h : s.writeSheets ps = .ok s') :
    s'.Sorted := by
  induction ps generalizing s with
  | nil =>
    cases h
    exact hs
  | cons p rest ih =>
    rw [ArtifactStore.writeSheets] at h
    split at h
    · cases h
    · next es hes => exact ih (hs.setEntries (increasing_updated (hs.entries hes))) h

/-- The rows of every sheet can be opened. -/
def OpensRows (s : ArtifactStore) : Prop := ∀ file, ∃ es, s.entries (rowsTable file) = .ok es

theorem opensRows_empty : empty.OpensRows := fun _ => ⟨[], rfl⟩

theorem exists_writeSheets (ps : List SheetPlan) (hs : s.OpensRows) :
    ∃ s', s.writeSheets ps = .ok s' := by
  induction ps generalizing s with
  | nil => exact ⟨s, rfl⟩
  | cons p rest ih =>
    obtain ⟨es, hes⟩ := hs p.fileName
    rw [writeSheets, hes]
    refine ih fun file => ?_
    by_cases hfile : rowsTable file = rowsTable p.fileName
    · refine ⟨updated es p.removed p.rows, entries_of_table? ?_⟩
      rw [table?_setEntries, if_pos hfile]
    · obtain ⟨es', hes'⟩ := hs file
      refine ⟨es', hes' ▸ entries_congr ?_⟩
      rw [table?_setEntries, if_neg hfile]

theorem table?_dropOthers (s : ArtifactStore) (live : List String) (name : String) :
    (s.dropOthers live).table? name =
      if !isRowsTable name || live.contains name then s.table? name else none :=
  Entries.get?_filter (fun name => !isRowsTable name || live.contains name) name s.tables

theorem Sorted.dropOthers (hs : s.Sorted) (live : List String) : (s.dropOthers live).Sorted := by
  refine ⟨Entries.increasing_filter hs.names, fun name es h => ?_⟩
  rw [table?_dropOthers] at h
  split at h
  · exact hs.keys name es h
  · cases h

/-! ### Saves -/

/-- The tables of rows that a save leaves. -/
def rowsTables (plan : SavePlan) : List String := plan.sheets.map fun q => rowsTable q.fileName

/-- A save writes the sheets, drops other rows and writes the manifest. -/
theorem save_eq_ok_iff {plan : SavePlan} : s.save plan = .ok s' ↔
    ∃ s₁ es, s.writeSheets plan.sheets = .ok s₁ ∧
      (s₁.dropOthers (rowsTables plan)).entries manifestTable = .ok es ∧
      s' = (s₁.dropOthers (rowsTables plan)).setEntries manifestTable
        (Entries.insert compareText manifestKey plan.manifest.encode es) := by
  rw [save]
  cases s.writeSheets plan.sheets with
  | error e => simp
  | ok s₁ =>
    change (s₁.dropOthers (rowsTables plan)).writeManifest plan.manifest = .ok s' ↔ _
    rw [writeManifest]
    cases hes : (s₁.dropOthers (rowsTables plan)).entries manifestTable with
    | error e => simp [hes, Except.map]
    | ok es => simp [hes, Except.map, eq_comm]

/-- What a store holds after a save, compared with before: the rows of the sheets in the plan, no
other rows, the manifest, and what is neither. -/
structure Saved (plan : SavePlan) (s s' : ArtifactStore) : Prop where
  sheet : ∀ p ∈ plan.sheets, ∃ es, s.entries (rowsTable p.fileName) = .ok es ∧
    s'.table? (rowsTable p.fileName) = some (.rows (updated es p.removed p.rows))
  dropped : ∀ name, isRowsTable name = true → (∀ p ∈ plan.sheets, name ≠ rowsTable p.fileName) →
    s'.table? name = none
  manifest : ∃ es, s.entries manifestTable = .ok es ∧ s'.table? manifestTable =
    some (.rows (Entries.insert compareText manifestKey plan.manifest.encode es))
  other : ∀ name, isRowsTable name = false → name ≠ manifestTable → s'.table? name = s.table? name

theorem ne_of_isRowsTable {name : String} (h : isRowsTable name = false) (file : String) :
    name ≠ rowsTable file := by
  rintro rfl
  rw [isRowsTable_rowsTable] at h
  cases h

/-- Writing the sheets and dropping other rows leaves the manifest. -/
theorem entries_manifestTable_of_writeSheets {plan : SavePlan}
    (hfiles : (plan.sheets.map SheetPlan.fileName).Nodup) {s₁ : ArtifactStore}
    (h : s.writeSheets plan.sheets = .ok s₁) :
    (s₁.dropOthers (rowsTables plan)).entries manifestTable = s.entries manifestTable := by
  refine entries_congr ?_
  rw [table?_dropOthers, if_pos (by simp [isRowsTable_manifestTable]),
    (writeSheets_table? hfiles h).2 _ fun p _ =>
      ne_of_isRowsTable isRowsTable_manifestTable p.fileName]

/-- A save that is done does what it should. -/
theorem saved_of_save {plan : SavePlan} (hfiles : (plan.sheets.map SheetPlan.fileName).Nodup)
    (h : s.save plan = .ok s') : Saved plan s s' := by
  obtain ⟨s₁, es, hs₁, hes, rfl⟩ := save_eq_ok_iff.mp h
  obtain ⟨hwritten, hother⟩ := writeSheets_table? hfiles hs₁
  have hmem : ∀ name, name ∈ rowsTables plan ↔ ∃ p ∈ plan.sheets, rowsTable p.fileName = name :=
    fun name => List.mem_map
  -- the tables are written first, then others are dropped, and the manifest is written last
  refine ⟨fun p hp => ?_, fun name hrows hname => ?_, ⟨es, ?_, ?_⟩, fun name hrows hname => ?_⟩
  · obtain ⟨es', hes', hsheet⟩ := hwritten p hp
    refine ⟨es', hes', ?_⟩
    have hne := ne_of_isRowsTable isRowsTable_manifestTable p.fileName
    have hlive : rowsTable p.fileName ∈ rowsTables plan := (hmem _).mpr ⟨p, hp, rfl⟩
    rw [table?_setEntries, if_neg hne.symm, table?_dropOthers, if_pos (by simp [hlive]), hsheet]
  · have hne : name ≠ manifestTable := by
      rintro rfl
      rw [isRowsTable_manifestTable] at hrows
      cases hrows
    have hgone : name ∉ rowsTables plan := by
      rw [hmem]
      rintro ⟨p, hp, rfl⟩
      exact hname p hp rfl
    rw [table?_setEntries, if_neg hne, table?_dropOthers, if_neg (by simp [hrows, hgone])]
  · rw [← entries_manifestTable_of_writeSheets hfiles hs₁, hes]
  · rw [table?_setEntries, if_pos rfl]
  · rw [table?_setEntries, if_neg hname, table?_dropOthers, if_pos (by simp [hrows])]
    exact hother name fun p _ => ne_of_isRowsTable hrows p.fileName

/-- After a save the rows of every sheet can be opened. -/
theorem Saved.opensRows {plan : SavePlan} (h : Saved plan s s') : s'.OpensRows := by
  intro file
  by_cases hfile : ∃ p ∈ plan.sheets, p.fileName = file
  · obtain ⟨p, hp, rfl⟩ := hfile
    obtain ⟨es, -, htable⟩ := h.sheet p hp
    exact ⟨_, entries_of_table? htable⟩
  · refine ⟨[], entries_of_table?_none (h.dropped _ (isRowsTable_rowsTable file) ?_)⟩
    intro p hp heq
    exact hfile ⟨p, hp, (rowsTable_injective heq).symm⟩

/-- A store stays sorted. -/
theorem Sorted.save {plan : SavePlan} (hs : s.Sorted) (h : s.save plan = .ok s') : s'.Sorted := by
  obtain ⟨s₁, es, hs₁, hes, rfl⟩ := save_eq_ok_iff.mp h
  have hdropped := (hs.writeSheets hs₁).dropOthers (rowsTables plan)
  exact hdropped.setEntries (Entries.increasing_insert (hdropped.entries hes))

/-- A table of a store cannot be opened, or it can. -/
theorem entries_error {name : String} {e : BakeError} (h : s.entries name = .error e) :
    e = .table := by
  rw [entries] at h
  split at h <;> cases h
  rfl

theorem writeSheets_error {ps : List SheetPlan} {e : BakeError} (h : s.writeSheets ps = .error e) :
    e = .table := by
  induction ps generalizing s with
  | nil => cases h
  | cons p rest ih =>
    rw [writeSheets] at h
    split at h
    · next hes =>
      cases h
      exact entries_error hes
    · exact ih h

/-- A save fails only if a table cannot be opened. -/
theorem save_error {plan : SavePlan} {e : BakeError} (h : s.save plan = .error e) : e = .table := by
  rw [save] at h
  split at h
  · next hsheets =>
    cases h
    exact writeSheets_error hsheets
  · next s₁ _ =>
    rw [writeManifest] at h
    cases hes : (s₁.dropOthers (plan.sheets.map fun q => rowsTable q.fileName)).entries
        manifestTable with
    | error e' =>
      rw [hes] at h
      cases h
      exact entries_error hes
    | ok es =>
      rw [hes] at h
      cases h

/-- A save is done if the tables that it writes to are tables of bytes. -/
theorem exists_save {plan : SavePlan} (hfiles : (plan.sheets.map SheetPlan.fileName).Nodup)
    (hrows : s.OpensRows) (hmanifest : ∃ es, s.entries manifestTable = .ok es) :
    ∃ s', s.save plan = .ok s' := by
  obtain ⟨s₁, hs₁⟩ := exists_writeSheets plan.sheets hrows
  obtain ⟨es, hes⟩ := hmanifest
  refine ⟨_, save_eq_ok_iff.mpr ⟨s₁, es, hs₁, ?_, rfl⟩⟩
  rw [entries_manifestTable_of_writeSheets hfiles hs₁, hes]

end ArtifactStore

end TypedSheets
