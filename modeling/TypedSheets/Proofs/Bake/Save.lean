import TypedSheets.Proofs.Artifact.Loadable
import TypedSheets.Proofs.Bake.Outcome

/-!
# What a bake leaves in a store

A bake saves everything or nothing. What it saves is what it has baked and no more: rows of before
are gone, and so are the sheets that are not baked any more. So the store after a bake does not
depend on what was kept before, and baking again leaves it as it is.

## Main definitions

* `Baker.manifestOf` — what the manifest says of a baked container
* `Baker.Leaves` — what a bake leaves in a store

## Main results

* `Baker.leaves_of_run` — what a store holds after a bake
* `Baker.store_eq_of_run_error` — a bake that fails saves nothing
* `Baker.bake_saves_all_or_nothing` — bakes that fail, that succeed, and that are done again
-/

namespace TypedSheets

open ArtifactStore

variable {c : Catalog}

/-- What is kept of a table is an entry for each of its rows. -/
theorem AnyTable.kept_perm {t : AnyTable c} (h : t.table.Indexed) : t.kept.Perm t.table.encode := by
  refine Entries.ofList_perm ?_
  rw [Table.map_fst_encode]
  exact h.nodup

/-- The manifest says the same of a table, whatever its references are resolved to. -/
theorem AnyTable.artifact_linked {t : AnyTable c} (h : (c.type t.id).ResolutionBlind) (l : Linker)
    (file : String) : (t.linked l).artifact file = t.artifact file := by
  rw [artifact, artifact, keys_linked h]
  rfl

namespace Baker

/-- The manifest of a baked container: its sheets in order, each with its keys in row order. -/
def manifestOf (b : Baker c) (out : Container c) : Manifest :=
  ⟨out.naming, b.now,
    List.zipWith AnyTable.artifact out.tables.toList (b.bakedSheets.map Prod.snd)⟩

/-- What a bake with this container leaves in a store: of every baked sheet the rows of its table,
no other rows, and the manifest. What is neither rows nor manifest is as before. -/
structure Leaves (b : Baker c) (out : Container c) (store store' : ArtifactStore) : Prop where
  names : out.sheetNames = b.bakedSheets.map fun p => p.1.name
  rows : List.Forall₂ (fun t file => store'.table? (rowsTable file) = some (.rows t.kept))
    out.tables.toList (b.bakedSheets.map Prod.snd)
  /-- Each row is kept once, under its key. -/
  kept : ∀ t ∈ out.tables.toList, t.keys.Nodup ∧ t.kept.Perm t.table.encode
  dropped : ∀ name, isRowsTable name = true → (∀ p ∈ b.bakedSheets, name ≠ rowsTable p.2) →
    store'.table? name = none
  manifest : ∃ es, store.entries manifestTable = .ok es ∧ store'.table? manifestTable =
    some (.rows (Entries.insert compareText manifestKey (b.manifestOf out).encode es))
  manifest_eq : (b.manifestOf out).Fits → store'.manifest = .ok (some (b.manifestOf out))
  other : ∀ name, isRowsTable name = false → name ≠ manifestTable →
    store'.table? name = store.table? name

variable {b : Baker c} {store store' : ArtifactStore} {out : BakeOutput c}

/-- A bake that succeeds has saved the plan of its last state. -/
theorem saved_of_run (h : b.bake.run store = (.ok out, store')) :
    ∃ s : BakeState c, s.Holds (fun file answer => answer = store.rowKeys file) b b.bakedSheets ∧
      out = b.link s ∧ store.save (b.plan out.container s.baked) = .ok store' ∧
      Saved (b.plan out.container s.baked) store store' := by
  obtain ⟨s, hrun, -, rfl, hsave⟩ := run_bake_eq_ok_iff.mp h
  have hs := holds_of_run (A := fun file answer => answer = store.rowKeys file) (fun _ => rfl) hrun
  exact ⟨s, hs, rfl, hsave, saved_of_save (hs.map_fileName_plan ▸ hs.files_nodup) hsave⟩

theorem manifest_plan {A : String → Except BakeError (List String) → Prop} {s : BakeState c}
    (h : s.Holds A b b.bakedSheets) (out : Container c) :
    (b.plan out s.baked).manifest = b.manifestOf out := by
  have hartifact : ∀ (t : AnyTable c) (p : BakedSheet),
      (sheetPlan t p).artifact = t.artifact p.fileName := by
    intro t p
    rw [SheetPlan.artifact, AnyTable.artifact, AnyTable.keys, ← Table.map_fst_encode]
    rfl
  rw [SavePlan.manifest, plan, manifestOf, ← h.map_fileName, List.map_zipWith,
    List.zipWith_map_right]
  simp only [hartifact]

theorem indexed_link {A : String → Except BakeError (List String) → Prop} {s : BakeState c}
    (hs : s.Holds A b b.bakedSheets) (hkeys : b.KeepsKeys) : (b.link s).container.Indexed := by
  rw [link_container]
  exact hs.indexed.linked (hs.keepsKeys hkeys)

/-- The manifest is read back that a bake has saved. -/
theorem manifest_of_saved {A : String → Except BakeError (List String) → Prop} {s : BakeState c}
    (hs : s.Holds A b b.bakedSheets) {container : Container c}
    (hsaved : Saved (b.plan container s.baked) store store')
    (hfits : (b.manifestOf container).Fits) :
    store'.manifest = .ok (some (b.manifestOf container)) := by
  obtain ⟨es, -, htable⟩ := hsaved.manifest
  rw [manifest_plan hs] at htable
  rw [ArtifactStore.manifest, entries_of_table? htable]
  simp only [Entries.get?_insert, Std.ReflCmp.compare_self, beq_self_eq_true, if_true,
    Manifest.decode?_encode hfits]

/-- What a store holds after a bake. -/
theorem leaves_of_run (hkeys : b.KeepsKeys) (hstore : store.Sorted)
    (h : b.bake.run store = (.ok out, store')) :
    b.Leaves out.container store store' := by
  obtain ⟨s, hs, rfl, -, hsaved⟩ := saved_of_run h
  have hindexed := indexed_link hs hkeys
  have hmanifest := hsaved.manifest
  rw [manifest_plan hs] at hmanifest
  -- names, rows, distinct keys, dropped tables; the manifest and other tables are told by the save
  refine ⟨?_, ?_, fun t ht => ?_, fun name hrows hname => ?_, hmanifest,
    manifest_of_saved hs hsaved, hsaved.other⟩
  · rw [Container.sheetNames, hs.tables_link, List.map_map]
    exact List.map_congr_left fun p _ => b.name_ingested p.1
  · rw [hs.tables_link, List.forall₂_map_left_iff, List.forall₂_map_right_iff, List.forall₂_same]
    exact fun sheet hsheet =>
      hs.table?_of_keys_linked hstore hsaved hsheet (hkeys sheet hsheet _)
  · exact ⟨(hindexed.tables t ht).nodup, AnyTable.kept_perm (hindexed.tables t ht)⟩
  · refine hsaved.dropped name hrows fun p hp heq => ?_
    obtain ⟨q, hq, hfile⟩ := List.mem_map.mp (hs.map_fileName_plan ▸ List.mem_map_of_mem hp)
    exact hname q hq (hfile ▸ heq)

/-- Of one table of rows, what a bake leaves is known from its container. -/
theorem Leaves.table?_congr {b' : Baker c} {container : Container c} {other other' : ArtifactStore}
    (h : b.Leaves container store store') (h' : b'.Leaves container other other')
    (hsheets : b'.bakedSheets = b.bakedSheets) {name : String} (hname : isRowsTable name = true) :
    other'.table? name = store'.table? name := by
  by_cases hfile : ∃ file ∈ b.bakedSheets.map Prod.snd, name = rowsTable file
  · obtain ⟨file, hmem, rfl⟩ := hfile
    -- the table of that file is at the same place in both lists
    have hrows := h.rows
    have hrows' := h'.rows
    rw [hsheets] at hrows'
    generalize b.bakedSheets.map Prod.snd = files at hrows hrows' hmem
    generalize container.tables.toList = tables at hrows hrows'
    clear h h'
    induction hrows with
    | nil => exact absurd hmem List.not_mem_nil
    | cons hfirst _ ih =>
      obtain _ | ⟨hfirst', hrest'⟩ := hrows'
      rcases List.mem_cons.mp hmem with rfl | hmem
      · rw [hfirst, hfirst']
      · exact ih hmem hrest'
  · have hnone : ∀ p ∈ b.bakedSheets, name ≠ rowsTable p.2 := fun p hp heq =>
      hfile ⟨p.2, List.mem_map_of_mem hp, heq⟩
    rw [h.dropped name hname hnone, h'.dropped name hname (hsheets ▸ hnone)]

/-- The container of a bake depends on neither the store nor the time nor the token. -/
theorem container_eq_of_run {b' : Baker c} {other other' : ArtifactStore} {out' : BakeOutput c}
    (hschema : b'.schema = b.schema) (hsource : b'.source = b.source)
    (hassets : b'.assets = b.assets) (h : b.bake.run store = (.ok out, store'))
    (h' : b'.bake.run other = (.ok out', other')) : out'.container = out.container := by
  obtain ⟨s, hs, rfl, -⟩ := exists_holds_of_run h
  obtain ⟨t, ht, rfl, -⟩ := exists_holds_of_run h'
  have htables : t.container.tables.toList = s.container.tables.toList := by
    rw [ht.tables_eq, hs.tables_eq, bakedSheets_congr hschema]
    exact List.map_congr_left fun p _ => ingested_congr hschema hsource p.1
  have hnaming : t.container.naming = s.container.naming := by
    rw [ht.naming_eq, hs.naming_eq, hschema]
  rw [link_container, link_container, ht.indexed.ext hs.indexed hnaming htables, hassets]

/-- Baking again leaves the store as the first bake has left it. -/
theorem run_again (hkeys : b.KeepsKeys) (hstore : store.Sorted)
    (h : b.bake.run store = (.ok out, store')) :
    ∃ again, b.bake.run store' = (.ok again, store') ∧ again.container = out.container := by
  obtain ⟨s, -, rfl, hsave, hsaved⟩ := saved_of_run h
  have hsorted := hstore.save hsave
  have hleaves := leaves_of_run hkeys hstore h
  obtain ⟨es, hes, hmanifest⟩ := hleaves.manifest
  obtain ⟨again, store₂, hagain, hcontainer⟩ :=
    exists_run_of_run hsaved.opensRows ⟨_, entries_of_table? hmanifest⟩ h
  have hleaves₂ := leaves_of_run hkeys hsorted hagain
  rw [hcontainer] at hleaves₂
  obtain ⟨t, -, -, hsave₂, -⟩ := saved_of_run hagain
  refine ⟨again, ?_, hcontainer⟩
  have hsame : store₂ = store' := by
    -- table by table: rows, the manifest, and what no bake touches
    refine ext_table? (hsorted.save hsave₂) hsorted fun name => ?_
    by_cases hrows : isRowsTable name = true
    · exact hleaves.table?_congr hleaves₂ rfl hrows
    · by_cases hname : name = manifestTable
      · obtain ⟨es₂, hes₂, hmanifest₂⟩ := hleaves₂.manifest
        obtain rfl := Except.ok.inj ((entries_of_table? hmanifest).symm.trans hes₂)
        rw [hname, hmanifest₂, hmanifest, Entries.insert_eq_self (hsorted.keys _ _ hmanifest)]
        rw [Entries.get?_insert, if_pos (by simp)]
      · exact hleaves₂.other name (Bool.eq_false_iff.mpr hrows) hname
  rw [hagain, hsame]

/-- A bake that fails leaves the store as it was, whenever its token is found set: it saves last. -/
theorem store_eq_of_run_error {e : BakeError} (h : b.bake.run store = (.error e, store')) :
    store' = store := by
  rcases (savesLast_bake (fun _ _ => True) b).run_eq (s := store) fun _ => trivial with
    ⟨e', hfailed⟩ | ⟨plan, out, store₂, -, -, hsaved⟩
  · exact (congrArg Prod.snd (hfailed.symm.trans h)).symm
  · cases congrArg Prod.fst (hsaved.symm.trans h)

/-- A bake saves everything or nothing. One that fails leaves the store as it was, whenever its
token is found set. One that succeeds leaves the rows of the sheets it has baked, and of no others,
and the manifest of its container; baking again then changes nothing, and on any other store a bake
of the same sheets leaves the same, apart from the time. For this the rows have to keep their keys
when they are linked, which a bake that fails does not need. -/
theorem bake_saves_all_or_nothing (b : Baker c) (store : ArtifactStore) :
    (∀ e store', b.bake.run store = (.error e, store') → store' = store) ∧
      (b.KeepsKeys → store.Sorted →
        ∀ out store', b.bake.run store = (.ok out, store') →
          b.Leaves out.container store store' ∧
          (∃ again, b.bake.run store' = (.ok again, store') ∧
            again.container = out.container) ∧
          ∀ (b' : Baker c) other other' out', b'.schema = b.schema → b'.source = b.source →
            b'.assets = b.assets → other.Sorted → b'.bake.run other = (.ok out', other') →
            out'.container = out.container ∧
            (∀ name, isRowsTable name = true → other'.table? name = store'.table? name) ∧
            b'.manifestOf out'.container =
              { b.manifestOf out.container with bakedAt := b'.now }) := by
  refine ⟨fun e store' => store_eq_of_run_error, fun hkeys hstore out store' h =>
    ⟨leaves_of_run hkeys hstore h, run_again hkeys hstore h, ?_⟩⟩
  -- the container depends on schema, source and assets only, and what is left on the container
  intro b' other other' out' hschema hsource hassets hother h'
  have hcontainer := container_eq_of_run hschema hsource hassets h h'
  have hsheets := bakedSheets_congr hschema
  have hleaves' := leaves_of_run (hkeys.congr hschema hsource) hother h'
  rw [hcontainer] at hleaves' ⊢
  refine ⟨rfl, fun name hname => ?_, ?_⟩
  · exact (leaves_of_run hkeys hstore h).table?_congr hleaves' hsheets hname
  · rw [manifestOf, manifestOf, hsheets]

end Baker

/-- The quests are saved in an empty store, and baking them again changes nothing. -/
theorem Baker.bake_saves_all_or_nothing_quests : ∃ out store,
    Game.questBaker.bake.run .empty = (.ok out, store) ∧
      Game.questBaker.Leaves out.container .empty store ∧
      ∃ again, Game.questBaker.bake.run store = (.ok again, store) ∧
        again.container = out.container := by
  obtain ⟨out, store, h⟩ := Game.exists_run_questBaker
  obtain ⟨-, hok⟩ := Baker.bake_saves_all_or_nothing Game.questBaker .empty
  obtain ⟨hleaves, hagain, -⟩ := hok Game.keepsKeys_questBaker sorted_empty out store h
  exact ⟨out, store, h, hleaves, hagain⟩

namespace Game

/-- After a bake of the drafts into an empty store one row is kept, under the key of both. -/
theorem rowKeys_of_run {store : ArtifactStore} {out : BakeOutput drafts}
    (h : draftBaker.bake.run .empty = (.ok out, store)) :
    store.rowKeys "Drafts" = .ok ["done"] := by
  obtain ⟨l, k, k', htables, -, hkeys⟩ := drafts_of_run h
  obtain ⟨s, hs, rfl, -, hsaved⟩ := Baker.saved_of_run h
  have hsheet : (draftSheet, "Drafts") ∈ draftBaker.bakedSheets := List.mem_singleton_self _
  obtain ⟨p, hp, hof⟩ := exists_mem_of_forall₂ hs.plan_sheets hsheet
  obtain ⟨es, hes, htable⟩ := hsaved.sheet p hp
  obtain ⟨kept, hkept, hremoved⟩ := hof.removed
  -- nothing was kept before, so nothing is removed
  obtain rfl : es = [] := (Except.ok.inj hes).symm
  obtain rfl : kept = [] := Except.ok.inj hkept
  have hnone : p.removed = [] := List.eq_nil_iff_forall_not_mem.mpr fun key hkey =>
    List.not_mem_nil ((mem_removed_diffKeys List.nodup_nil).mp (hremoved ▸ hkey)).1
  have hlinked := (List.cons.inj (hs.tables_link.symm.trans htables)).1
  have hrows : p.rows.map Prod.fst = ["done", "done"] := by
    rw [hof.rows_eq, Table.map_fst_encode, ← hkeys, ← hlinked]
    rfl
  have hupdated : updated [] p.removed p.rows = Entries.ofList compareText p.rows := by
    rw [hnone]
    rfl
  rw [hof.fileName_eq, hupdated] at htable
  rw [rowKeys, entries_of_table? htable]
  refine congrArg Except.ok ((Entries.map_fst_ofList p.rows).trans ?_)
  rw [hrows]
  rfl

end Game

/-- Rows have to keep their keys when they are linked. The two drafts that are baked have the same
key, so one of them overwrites the other in the store. -/
theorem Baker.not_leaves_of_bake_drafts : ∃ out store,
    Game.draftBaker.bake.run .empty = (.ok out, store) ∧
      out.container.tables.toList.map AnyTable.size = [2] ∧
      out.container.tables.toList.map AnyTable.keys = [["done", "done"]] ∧
      store.rowKeys "Drafts" = .ok ["done"] ∧
      ¬ Game.draftBaker.Leaves out.container .empty store := by
  obtain ⟨out, store, h⟩ := Game.exists_run_draftBaker
  obtain ⟨l, -, -, htables, -, hkeys⟩ := Game.drafts_of_run h
  have hsize : ((Game.draftBaker.ingested Game.draftSheet).linked l).size = 2 :=
    (AnyTable.size_linked l _).trans Game.size_ingested_draftSheet
  refine ⟨out, store, h, ?_, ?_, Game.rowKeys_of_run h, fun hleaves => ?_⟩
  · rw [htables, List.map_singleton, hsize]
  · rw [htables, List.map_singleton, hkeys]
  · have hnodup := (hleaves.kept _ (htables ▸ List.mem_singleton_self _)).1
    rw [hkeys] at hnodup
    exact absurd hnodup (by decide)

end TypedSheets
