import TypedSheets.Proofs.Bake.Shared
import TypedSheets.Proofs.DataStore
import TypedSheets.Proofs.Table.Reached

/-!
# Serving what was baked

What a reference is resolved to is a place: a sheet and a row of it. The place is found when a
container is baked, and it is used when the container was saved, loaded and taken over by a data
store whose rows are replaced now and then. At each of these steps sheets and rows keep their order,
so the place is that of a row with the key of the reference all the way.

## Main results

* `Baker.everyRef_of_run` — every resolved reference is to the first row of its key
* `Baker.serve_of_bake` — what was baked is loaded and taken over, and its references are followed
-/

namespace TypedSheets

variable {c : Catalog}

namespace Baker

variable {b : Baker c} {store store' : ArtifactStore} {out : BakeOutput c}

/-! ### What a bake has saved is loaded -/

theorem hasSaved_of_run (h : b.bake.run store = (.ok out, store')) : b.HasSaved out store' := by
  obtain ⟨s, hs, rfl, hsave⟩ := exists_holds_of_run h
  exact ⟨store, _, ⟨s, hs, rfl, rfl⟩, hsave⟩

/-! ### What references are resolved to -/

theorem indexed_of_run (hkeys : b.KeepsKeys) (h : b.bake.run store = (.ok out, store')) :
    out.container.Indexed := by
  obtain ⟨s, hs, rfl, -⟩ := exists_holds_of_run h
  exact indexed_link hs hkeys

/-- What every reference has that is unresolved or resolved to the first row of its key, all
references have after a bake. -/
theorem everyRef_of_run (hsource : b.source.Unresolved) (hkeys : b.KeepsKeys)
    (h : b.bake.run store = (.ok out, store')) {R : TargetRef → Prop}
    (hR : ∀ r : TargetRef, (∀ k, r.ref.resolved = some k →
      out.container.FirstRow r.target r.ref.key k) → R r) :
    ∀ t ∈ out.container.tables.toList, ∀ row ∈ t.table.rows.toList,
      (c.type t.id).record.members.EveryRef R (fun _ => True) row := by
  obtain ⟨s, hs, rfl, -⟩ := exists_holds_of_run h
  rw [link_container] at hR
  rw [hs.tables_link]
  refine List.forall_mem_map.mpr fun p hp row hrow => ?_
  obtain ⟨row, -, rfl, raw, hraw, hread⟩ := exists_of_mem_linked hrow
  obtain ⟨raws, hraws, hmem⟩ := exists_of_mem_rawRows hraw
  have hunresolved : ∀ r : TargetRef, r.IsUnresolved → R r :=
    fun r hr => hR r fun k hk => nomatch hr.symm.trans hk
  have hnew : ∀ target key, R ⟨target, ⟨key, none⟩⟩ := fun _ _ => hunresolved _ rfl
  have hcells : ∀ column, (RawRow.cell raw column).EveryRef R fun _ => True := fun column =>
    Value.everyRef_imp hunresolved (fun _ _ => trivial) _ (hsource _ raws hraws raw hmem column)
  -- references are unresolved when rows are read, and linking resolves them to first rows
  refine Members.everyRef_relinked _ hnew (fun _ _ => trivial) (fun r => ?_) (fun _ => trivial) _ _
    (Members.everyRef_of_read hnew (fun _ _ => trivial) hcells hread)
  exact hR _ (Container.linksRow_linked hs.indexed (hs.keepsKeys hkeys) r).firstRow

/-! ### Serving what is loaded -/

/-- After a bake that succeeds, loading with the same schema gives its container, and a data store
takes it over. From then on the store follows every reference that is resolved as the rows of the
container resolve it, whatever rows are replaced, and whether that succeeds or fails: the reference
leads to a row of the record type that it is to, with the key that it has, and this is the row that
the sheet gives for the key and for the id. Unless the source hands in references that are resolved
already, these are all references that are resolved in data members of rows.

Dynamic values have no encoding, so records hold none, and rows have to keep their keys when they
are linked. -/
theorem serve_of_bake (htypes : ∀ d ∈ b.schema.sheets, (c.type d.id).record.members.Static)
    (hkeys : b.KeepsKeys) (h : b.bake.run store = (.ok out, store'))
    (hfits : b.Fits out.container) :
    b.schema.load.run store' = (.ok out.container, store') ∧
      ∃ s, DataStore.serve out.container = (s, .ok ()) ∧
        (∀ r : TargetRef,
          (RowIndex.ofContainer out.container).lookup? r.target r.ref.key = r.ref.resolved →
            s.FollowsAlways out.container r) ∧
        (b.source.Unresolved →
          ∀ t ∈ out.container.tables.toList, ∀ row ∈ t.table.rows.toList,
            (c.type t.id).record.members.EveryRef (s.FollowsAlways out.container) (fun _ => True)
              row) := by
  have hindexed := indexed_of_run hkeys h
  obtain ⟨s, hserve, hserves⟩ := DataStore.serve_eq_ok hindexed
  -- a place that the index gives is that of the first row with the key, and the store keeps places
  refine ⟨(hasSaved_of_run h).run_load htypes hkeys hfits (declares_of_run h), s, hserve,
    fun r hr => ?_, fun hsource => ?_⟩
  · exact hserves.followsAlways hindexed fun k hk =>
      RowIndex.firstRow_of_lookup? hindexed (hr.trans hk)
  · exact everyRef_of_run hsource hkeys h fun r => hserves.followsAlways hindexed

end Baker

/-! ### Quests -/

/-- The second of the linked quests holds what its reference to the first one was linked to. -/
theorem Game.ref_of_linked_quests {l : Linker} {R : TargetRef → Prop}
    (hR : ∀ row ∈ ((questBaker.ingested questSheet).linked l).table.rows.toList,
      quest.record.members.EveryRef R (fun _ => True) row) :
    R ⟨"Quest", ⟨"1", l.row "Quest" "1"⟩⟩ := by
  have hrows := Baker.rows_linked (b := questBaker) (d := questSheet) lawful_quest
    plainRows_quest forall₂_questRows nodup_questRows l
  have hrow := hR _ (hrows ▸ List.mem_map_of_mem (List.mem_cons_of_mem _ List.mem_cons_self))
  exact hrow.2.2.2.1.2.2 _ (List.mem_map_of_mem List.mem_cons_self)

/-- The reference of the second of the baked quests to the first one is resolved. -/
theorem Game.exists_resolved_of_run {store store' : ArtifactStore} {out : BakeOutput catalog}
    (h : questBaker.bake.run store = (.ok out, store')) {R : TargetRef → Prop}
    (hR : ∀ t ∈ out.container.tables.toList, ∀ row ∈ t.table.rows.toList,
      (catalog.type t.id).record.members.EveryRef R (fun _ => True) row) :
    ∃ k, R ⟨"Quest", ⟨"1", some k⟩⟩ := by
  obtain ⟨s, hs, rfl, -⟩ := Baker.exists_holds_of_run h
  rw [hs.tables_link, bakedSheets_questBaker, List.map_singleton] at hR
  have href := ref_of_linked_quests (hR _ (List.mem_singleton.mpr rfl))
  have hfound : ((s.container.linker questBaker.assets).row "Quest" "1").isSome := by
    refine (RowIndex.isSome_lookup? hs.indexed).mpr ⟨questBaker.ingested questSheet, ?_, rfl, ?_⟩
    · rw [hs.tables_eq, bakedSheets_questBaker]
      exact List.mem_singleton.mpr rfl
    · rw [keys_ingested_questSheet]
      exact List.mem_cons_self
  obtain ⟨k, hk⟩ := Option.isSome_iff_exists.mp hfound
  exact ⟨k, hk ▸ href⟩

/-- The quests are loaded and taken over, and the reference of the second one to the first one is
followed from then on. -/
theorem Baker.serve_of_bake_quests : ∃ out store s k,
    Game.questBaker.bake.run .empty = (.ok out, store) ∧
      Game.questBaker.schema.load.run store = (.ok out.container, store) ∧
      DataStore.serve out.container = (s, .ok ()) ∧
      s.FollowsAlways out.container ⟨"Quest", ⟨"1", some k⟩⟩ := by
  obtain ⟨out, store, h⟩ := Game.exists_run_questBaker
  obtain ⟨hload, s, hserve, -, hfollows⟩ := Baker.serve_of_bake
    Game.static_questSheets Game.keepsKeys_questBaker h (Game.fits_of_run h)
  obtain ⟨k, hk⟩ := Game.exists_resolved_of_run h
    (hfollows (SheetSource.fromJson_rowsOfJson Game.questJson).unresolved)
  exact ⟨out, store, s, k, h, hload, hserve, hk⟩

/-! ### Drafts -/

/-- A store refuses the baked drafts, for the second one has the key of the first. -/
theorem Game.serve_of_run {store store' : ArtifactStore} {out : BakeOutput drafts}
    (h : draftBaker.bake.run store = (.ok out, store')) :
    DataStore.serve out.container = (.empty drafts, .error (.duplicateId "Drafts" "done")) := by
  obtain ⟨l, k, k', htables, hrows, -⟩ := drafts_of_run h
  have hrepeat : draft.FirstRepeat ((draftBaker.ingested draftSheet).linked l).table.rows.toList
      (draftRow ⟨"b", some k'⟩ .empty) :=
    hrows ▸ ⟨[draftRow ⟨"a", some k⟩ ⟨"c", none⟩], [], rfl, List.nodup_singleton _,
      List.mem_singleton_self _⟩
  have hname : ((draftBaker.ingested draftSheet).linked l).name = "Drafts" :=
    draftBaker.name_ingested draftSheet
  refine DataStore.serve_eq_error htables ?_
  rw [hname]
  exact DataTable.ofRows_eq_error "Drafts" hrepeat

/-- Rows have to keep their keys when they are linked. The baked drafts have references that are
resolved, but they are neither loaded nor taken over. -/
theorem Baker.not_served_of_bake_drafts : ∃ out store l k k' e,
    Game.draftBaker.bake.run .empty = (.ok out, store) ∧
      out.container.tables.toList = [(Game.draftBaker.ingested Game.draftSheet).linked l] ∧
      ((Game.draftBaker.ingested Game.draftSheet).linked l).table.rows.toList =
        [Game.draftRow ⟨"a", some k⟩ ⟨"c", none⟩, Game.draftRow ⟨"b", some k'⟩ .empty] ∧
      Game.draftBaker.schema.load.run store = (.error e, store) ∧
      DataStore.serve out.container =
        (.empty Game.drafts, .error (.duplicateId "Drafts" "done")) := by
  obtain ⟨out, store, h⟩ := Game.exists_run_draftBaker
  obtain ⟨l, k, k', htables, hrows, -⟩ := Game.drafts_of_run h
  obtain ⟨e, hload⟩ := ContainerSchema.exists_error_of_not_loadable
    (Game.not_loadable_of_run h Game.draftBaker.schema)
  exact ⟨out, store, l, k, k', e, h, htables, hrows, hload, Game.serve_of_run h⟩

end TypedSheets
