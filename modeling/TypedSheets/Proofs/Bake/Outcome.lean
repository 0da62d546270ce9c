import TypedSheets.Game.Catalog
import TypedSheets.Proofs.Bake.Link

/-!
# When bakes succeed

Whether a bake succeeds, and with which container, does not depend on the keys that are kept in the
store: these are only counted and, where they are gone, removed. A bake that is not cancelled
succeeds if its sheets have distinct names and files, can be read, and fit in a container.

## Main definitions

* `BakeState.Alike` — states that differ at most in what was kept before
* `Baker.Bakeable` — the conditions on schema and source
* `Game.questBaker` — a bake of two quests
* `Game.draftBaker` — a bake of two drafts, whose ids depend on what references are resolved to

## Main results

* `Baker.run_addSheets_alike` — bakes that go on from states that are alike stay alike
* `Baker.run_bake_eq_ok_iff` — the steps of a bake that succeeds
* `Baker.exists_run_of_run` — a bake that succeeds on a store succeeds on every other
* `Baker.Bakeable.exists_run` — a bake succeeds under the conditions
-/

namespace TypedSheets

variable {c : Catalog}

/-- Two states of a bake that differ at most in what was kept before. -/
structure BakeState.Alike (s t : BakeState c) : Prop where
  container : s.container = t.container
  files : s.baked.map BakedSheet.fileName = t.baked.map BakedSheet.fileName
  read : s.read = t.read

theorem BakeState.Alike.skip {s t : BakeState c} (h : s.Alike t) (name : String) :
    (Baker.skip s name).Alike (Baker.skip t name) :=
  ⟨h.container, h.files, h.read⟩

/-- A sheet at a position has a file. -/
theorem SheetName.exists_fileName? (name : String) (position : Nat) :
    ∃ file, SheetName.fileName? name (some position) = some file := by
  rw [SheetName.fileName?.eq_def]
  split
  · exact ⟨_, rfl⟩
  · split
    · exact ⟨_, rfl⟩
    · split
      · exact ⟨_, rfl⟩
      · exact ⟨_, rfl⟩

namespace Baker

variable {b : Baker c} {s t : BakeState c} {position : Nat} {store store' : ArtifactStore}

/-! ### What is kept does not matter -/

theorem any_fileName (s : BakeState c) (file : String) : (s.baked.any fun p => p.fileName == file) =
    (s.baked.map BakedSheet.fileName).any fun f => f == file := by
  rw [List.any_map]
  rfl

theorem fileFor_congr (h : s.Alike t) (position : Nat) (name : String) :
    b.fileFor s position name = b.fileFor t position name := by
  simp only [fileFor, any_fileName, h.files]

/-- The same sheet is added to both states, or to none. -/
theorem addSheet_alike (h : s.Alike t) (d : SheetDecl c) (file : String)
    (kept kept' : List String) :
    (∃ e, b.addSheet s d file kept = .error e ∧ b.addSheet t d file kept' = .error e) ∨
      ∃ s' t', b.addSheet s d file kept = .ok s' ∧ b.addSheet t d file kept' = .ok t' ∧
        s'.Alike t' := by
  simp only [addSheet, h.container]
  cases b.source d.name with
  | error e => exact Or.inl ⟨_, rfl, rfl⟩
  | ok raws =>
    simp only
    generalize Table.ingest (c.type d.id) d.name b.schema.naming (raws.getD []) = made
    obtain ⟨table, issues⟩ := made
    simp only
    cases t.container.insert ⟨d.id, table⟩ with
    | error e => exact Or.inl ⟨e, rfl, rfl⟩
    | ok container => exact Or.inr ⟨_, _, rfl, rfl, rfl, by simp [h.files], by simp [h.read]⟩

/-- While sheets are added, the store stays as it is. -/
theorem snd_run_addSheets (s : BakeState c) (position : Nat) (store : ArtifactStore)
    (ds : List (SheetDecl c)) : ((b.addSheets s position ds).run store).2 = store := by
  induction ds generalizing s position with
  | nil => rfl
  | cons d rest ih =>
    rw [addSheets]
    split
    · rfl
    · split
      · rfl
      · exact ih _ _
      · simp only [StoreProcess.run]
        split
        · rfl
        · split
          · rfl
          · exact ih _ _

/-- How a bake gets to the end that has a sheet before it: the sheet is left out or added. -/
theorem run_addSheets_cons_eq_ok_iff {d : SheetDecl c} {rest : List (SheetDecl c)}
    {s' : BakeState c} {store₁ : ArtifactStore} :
    (b.addSheets s position (d :: rest)).run store = (.ok s', store₁) ↔
      b.cancelled position s.read = false ∧
        ((b.fileFor s position d.name = .ok none ∧
            (b.addSheets (skip s d.name) (position + 1) rest).run store = (.ok s', store₁)) ∨
          ∃ file kept next, b.fileFor s position d.name = .ok (some file) ∧
            store.rowKeys file = .ok kept ∧ b.addSheet s d file kept = .ok next ∧
              (b.addSheets next (position + 1) rest).run store = (.ok s', store₁)) := by
  rw [addSheets]
  -- one case for each check that may end the run at this sheet
  cases b.cancelled position s.read with
  | true => simp [StoreProcess.run]
  | false =>
    rw [if_neg (by decide)]
    cases hfile : b.fileFor s position d.name with
    | error e => simp [StoreProcess.run]
    | ok file? =>
      cases file? with
      | none => simp
      | some file =>
        simp only [StoreProcess.run]
        cases hkept : store.rowKeys file with
        | error e => simp [StoreProcess.run, hkept]
        | ok kept =>
          simp only
          cases hadd : b.addSheet s d file kept with
          | error e => simp [StoreProcess.run, hkept, hadd]
          | ok next => simp [hkept, hadd]

/-- The state at the end has baked all sheets. -/
theorem holds_of_run_addSheets {A : String → Except BakeError (List String) → Prop}
    {sheets : List (SheetDecl c × String)} {ds : List (SheetDecl c)} {s' : BakeState c}
    {store₁ : ArtifactStore} (hA : ∀ file, A file (store.rowKeys file)) (h : s.Holds A b sheets)
    (hrun : (b.addSheets s position ds).run store = (.ok s', store₁)) :
    s'.Holds A b (sheets ++ b.sheetFiles position ds) := by
  induction ds generalizing s position sheets with
  | nil =>
    cases hrun
    simpa [sheetFiles] using h
  | cons d rest ih =>
    obtain ⟨-, ⟨hskip, hrest⟩ | ⟨file, kept, next, hfile, hkept, hadd, hrest⟩⟩ :=
      run_addSheets_cons_eq_ok_iff.mp hrun
    · rw [sheetFiles_of_fileFor_none hskip]
      exact ih (h.skip d.name) hrest
    · obtain ⟨hfiles, hnew⟩ := sheetFiles_of_fileFor_some rest hfile
      rw [hfiles, List.append_cons]
      exact ih (addSheet_holds h (hkept ▸ hA file) hnew hadd) hrest

/-- A bake from the start that gets to the end has baked the sheets of its schema. -/
theorem holds_of_run {A : String → Except BakeError (List String) → Prop}
    (hA : ∀ file, A file (store.rowKeys file))
    (hrun : (b.addSheets b.start 0 b.schema.sheets).run store = (.ok s, store)) :
    s.Holds A b b.bakedSheets :=
  holds_of_run_addSheets hA (BakeState.holds_start A b) hrun

/-- If a bake that goes on from a state gets to the end, so does one that goes on from a state that
is alike, on any store whose rows can be opened, and the states at the end are alike. -/
theorem run_addSheets_alike {ds : List (SheetDecl c)} (hopens : store'.OpensRows) (h : s.Alike t)
    {s' : BakeState c} {store₁ : ArtifactStore}
    (hrun : (b.addSheets s position ds).run store = (.ok s', store₁)) :
    ∃ t', (b.addSheets t position ds).run store' = (.ok t', store') ∧ s'.Alike t' := by
  induction ds generalizing s t position with
  | nil =>
    cases hrun
    exact ⟨t, rfl, h⟩
  | cons d rest ih =>
    obtain ⟨hgoes, ⟨hskip, hrest⟩ | ⟨file, kept, next, hfile, -, hadd, hrest⟩⟩ :=
      run_addSheets_cons_eq_ok_iff.mp hrun
    · obtain ⟨t', ht', halike⟩ := ih (h.skip d.name) hrest
      refine ⟨t', run_addSheets_cons_eq_ok_iff.mpr ⟨h.read ▸ hgoes, Or.inl ⟨?_, ht'⟩⟩, halike⟩
      rw [← fileFor_congr h, hskip]
    -- the other store may keep other keys of the sheet, which change counts and removals only
    · obtain ⟨es, hes⟩ := hopens file
      have hkeys : store'.rowKeys file = .ok (es.map Prod.fst) := by
        rw [ArtifactStore.rowKeys, hes]
        rfl
      rcases addSheet_alike (b := b) h d file kept (es.map Prod.fst) with
        ⟨e, he, -⟩ | ⟨s₁, t₁, hs₁, ht₁, hnext⟩
      · cases hadd.symm.trans he
      · obtain rfl := Except.ok.inj (hadd.symm.trans hs₁)
        obtain ⟨t', ht', halike⟩ := ih hnext hrest
        refine ⟨t', run_addSheets_cons_eq_ok_iff.mpr ⟨h.read ▸ hgoes,
          Or.inr ⟨file, _, t₁, ?_, hkeys, ht₁, ht'⟩⟩, halike⟩
        rw [← fileFor_congr h, hfile]

theorem link_congr (h : s.Alike t) : (b.link s).container = (b.link t).container := by
  rw [link_container, link_container, h.container]

/-- What is left of a bake that has baked these sheets: it saves unless it is cancelled. -/
theorem finish_of_holds {A : String → Except BakeError (List String) → Prop}
    {sheets : List (SheetDecl c × String)} (h : s.Holds A b sheets) : b.finish s =
      if b.cancelled b.schema.sheets.length s.read then .done (.error .cancelled)
      else .save (b.plan (b.link s).container s.baked) fun saved =>
        .done (saved.map fun _ => b.link s) := by
  rw [finish, if_neg (not_not_intro h.length_baked)]

/-- A bake whose sheets are added succeeds if it is not cancelled and is saved. -/
theorem run_finish_eq_ok_iff {A : String → Except BakeError (List String) → Prop}
    {sheets : List (SheetDecl c × String)} (h : s.Holds A b sheets) {out : BakeOutput c} :
    (b.finish s).run store = (.ok out, store') ↔
      b.cancelled b.schema.sheets.length s.read = false ∧ out = b.link s ∧
        store.save (b.plan out.container s.baked) = .ok store' := by
  rw [finish_of_holds h]
  cases b.cancelled b.schema.sheets.length s.read with
  | true => simp [StoreProcess.run]
  | false =>
    rw [if_neg (by decide), StoreProcess.run]
    constructor
    · intro h
      split at h
      · next store₁ hsave =>
        cases h
        exact ⟨rfl, rfl, hsave⟩
      · cases h
    · rintro ⟨-, rfl, hsave⟩
      rw [hsave]
      rfl

/-- A bake succeeds if its sheets are added, it is not cancelled after that, and it is saved. -/
theorem run_bake_eq_ok_iff {out : BakeOutput c} : b.bake.run store = (.ok out, store') ↔
    ∃ s, (b.addSheets b.start 0 b.schema.sheets).run store = (.ok s, store) ∧
      b.cancelled b.schema.sheets.length s.read = false ∧ out = b.link s ∧
      store.save (b.plan out.container s.baked) = .ok store' := by
  have hstore := snd_run_addSheets (b := b) b.start 0 store b.schema.sheets
  rw [bake, StoreProcess.run_bind, hstore]
  cases hended : (b.addSheets b.start 0 b.schema.sheets).run store with
  | mk result store₁ =>
    rw [hended] at hstore
    obtain rfl : store₁ = store := hstore
    cases result with
    | error e => simp [StoreProcess.run]
    | ok s =>
      have hs := holds_of_run (A := fun _ _ => True) (fun _ => trivial) hended
      simp [run_finish_eq_ok_iff hs]

/-- A bake that succeeds has saved what its last state gives. -/
theorem exists_holds_of_run {out : BakeOutput c} (h : b.bake.run store = (.ok out, store')) :
    ∃ s : BakeState c, s.Holds (fun _ _ => True) b b.bakedSheets ∧ out = b.link s ∧
      store.save (b.plan out.container s.baked) = .ok store' := by
  obtain ⟨s, hrun, -, hout, hsave⟩ := run_bake_eq_ok_iff.mp h
  exact ⟨s, holds_of_run (fun _ => trivial) hrun, hout, hsave⟩

/-- The container of a bake holds a table for every sheet that is baked, in order, with its
references linked. -/
theorem tables_of_run {out : BakeOutput c} (h : b.bake.run store = (.ok out, store')) :
    ∃ l : Linker, out.container.tables.toList =
      b.bakedSheets.map fun p => (b.ingested p.1).linked l := by
  obtain ⟨s, hs, rfl, -⟩ := exists_holds_of_run h
  exact ⟨_, hs.tables_link⟩

/-- The references of a bake are looked up in the tables as they were read, before any is linked. -/
theorem exists_linker_of_run {out : BakeOutput c} (h : b.bake.run store = (.ok out, store')) :
    ∃ l : Linker, out.container.tables.toList =
        b.bakedSheets.map (fun p => (b.ingested p.1).linked l) ∧
      ∀ target key, (l.row target key).isSome ↔
        ∃ p ∈ b.bakedSheets,
          (b.ingested p.1).recordName = target ∧ key ∈ (b.ingested p.1).keys := by
  obtain ⟨s, hs, rfl, -⟩ := exists_holds_of_run h
  refine ⟨s.container.linker b.assets, hs.tables_link, fun target key => ?_⟩
  have hfound : ((s.container.linker b.assets).row target key).isSome ↔
      s.container.HasKey target key := RowIndex.isSome_lookup? hs.indexed
  rw [hfound, Container.HasKey, hs.tables_eq]
  constructor
  · rintro ⟨t, ht, h⟩
    obtain ⟨p, hp, rfl⟩ := List.mem_map.mp ht
    exact ⟨p, hp, h⟩
  · rintro ⟨p, hp, h⟩
    exact ⟨_, List.mem_map_of_mem hp, h⟩

/-- The plan of a bake is saved in a store that can be opened. -/
theorem exists_save_plan {A : String → Except BakeError (List String) → Prop}
    {sheets : List (SheetDecl c × String)} (h : s.Holds A b sheets) (hopens : store.OpensRows)
    (hmanifest : ∃ es, store.entries ArtifactStore.manifestTable = .ok es) :
    ∃ store', store.save (b.plan (b.link s).container s.baked) = .ok store' := by
  refine ArtifactStore.exists_save ?_ hopens hmanifest
  rw [h.map_fileName_plan]
  exact h.files_nodup

/-- A bake that succeeds on one store succeeds on every store that can be opened, with the same
container. -/
theorem exists_run_of_run {out : BakeOutput c} {store₁ : ArtifactStore} (hopens : store'.OpensRows)
    (hmanifest : ∃ es, store'.entries ArtifactStore.manifestTable = .ok es)
    (h : b.bake.run store = (.ok out, store₁)) :
    ∃ out' store₂, b.bake.run store' = (.ok out', store₂) ∧ out'.container = out.container := by
  obtain ⟨s, hrun, hgoes, rfl, -⟩ := run_bake_eq_ok_iff.mp h
  obtain ⟨t, hrun', halike⟩ := run_addSheets_alike hopens ⟨rfl, rfl, rfl⟩ hrun
  have ht := holds_of_run (A := fun _ _ => True) (fun _ => trivial) hrun'
  obtain ⟨store₂, hsave⟩ := exists_save_plan ht hopens hmanifest
  exact ⟨b.link t, store₂,
    run_bake_eq_ok_iff.mpr ⟨t, hrun', halike.read ▸ hgoes, rfl, hsave⟩, (link_congr halike).symm⟩

/-! ### When a bake succeeds -/

/-- The sheets of a schema have names and files of their own, the source can read them, and there is
room for them in a container. -/
structure Bakeable (b : Baker c) : Prop where
  named : ∀ d ∈ b.schema.sheets, Text.isBlank d.name = false
  files_nodup : (b.bakedSheets.map Prod.snd).Nodup
  names_nodup : (b.bakedSheets.map fun p => p.1.name).Nodup
  source : ∀ p ∈ b.bakedSheets, ∃ raws, b.source p.1.name = .ok raws
  sheets_le : b.bakedSheets.length ≤ maxSheets
  rows_le : ∀ p ∈ b.bakedSheets, (b.ingested p.1).size ≤ RowKey.maxRow.toNat + 1

variable {d : SheetDecl c} {file : String} {sheets : List (SheetDecl c × String)}

theorem fileFor_of_pseudo (s : BakeState c) (position : Nat) (hname : Text.isBlank d.name = false)
    (hpseudo : (SheetName.isPseudo d.name && !b.schema.allowPseudo) = true) :
    b.fileFor s position d.name = .ok none := by
  rw [fileFor, if_neg (by simp [hname]), if_pos hpseudo]

theorem fileFor_of_new (hname : Text.isBlank d.name = false)
    (hpseudo : ¬ (SheetName.isPseudo d.name && !b.schema.allowPseudo) = true)
    (hfile : SheetName.fileName? d.name (some position) = some file)
    (hnew : file ∉ s.baked.map BakedSheet.fileName) :
    b.fileFor s position d.name = .ok (some file) := by
  have hnone : (s.baked.any fun p => p.fileName == file) = false := by
    rw [any_fileName, List.any_eq_false]
    intro f hf heq
    exact hnew (eq_of_beq heq ▸ hf)
  rw [fileFor, if_neg (by simp [hname]), if_neg hpseudo, hfile]
  simp only [hnone, Bool.false_eq_true, if_false]

theorem exists_addSheet {raws : Option (List RawRow)} {container : Container c}
    (hsource : b.source d.name = .ok raws)
    (hinsert : s.container.insert (b.ingested d) = .ok container) (file : String)
    (kept : List String) : ∃ next, b.addSheet s d file kept = .ok next := by
  have hraws : b.rawRows d.name = raws.getD [] := rawRows_of_source hsource
  simp only [ingested, hraws] at hinsert
  simp only [addSheet, hsource, hinsert]
  exact ⟨_, rfl⟩

/-- A table that is new to a container, and fits in it, is added. -/
theorem exists_insert_ingested {A : String → Except BakeError (List String) → Prop}
    (h : s.Holds A b sheets) (hnew : d.name ∉ sheets.map fun p => p.1.name)
    (hsheets : sheets.length < maxSheets)
    (hrows : (b.ingested d).size ≤ RowKey.maxRow.toNat + 1) :
    ∃ container, s.container.insert (b.ingested d) = .ok container := by
  have hnames : s.container.sheetNames = sheets.map fun p => p.1.name := by
    rw [Container.sheetNames, h.tables_eq, List.map_map]
    exact List.map_congr_left fun p _ => b.name_ingested p.1
  refine ⟨_, h.indexed.insert_eq_ok_iff.mpr ⟨⟨?_, ?_, hrows⟩, rfl⟩⟩
  · rwa [b.name_ingested, hnames]
  · rwa [← Container.length_sheetNames, hnames, List.length_map]

/-- The next sheet that is baked has a file that is not in use, and it is added. -/
theorem Bakeable.exists_addSheet {A : String → Except BakeError (List String) → Prop}
    {rest : List (SheetDecl c × String)} (h : b.Bakeable) (hs : s.Holds A b sheets)
    (hsheets : b.bakedSheets = sheets ++ (d, file) :: rest) (kept : List String) :
    file ∉ s.baked.map BakedSheet.fileName ∧ ∃ next, b.addSheet s d file kept = .ok next := by
  have hmem : (d, file) ∈ b.bakedSheets := by simp [hsheets]
  have hfiles := h.files_nodup
  have hnames := h.names_nodup
  have hlength := h.sheets_le
  rw [hsheets, List.map_append, List.map_cons, List.nodup_middle] at hfiles hnames
  rw [hsheets, List.length_append, List.length_cons] at hlength
  obtain ⟨raws, hraws⟩ := h.source _ hmem
  obtain ⟨container, hinsert⟩ := exists_insert_ingested hs
    (fun hname => (List.nodup_cons.mp hnames).1 (List.mem_append_left _ hname)) (by omega)
    (h.rows_le _ hmem)
  refine ⟨?_, Baker.exists_addSheet hraws hinsert file kept⟩
  rw [hs.map_fileName]
  exact fun hfile => (List.nodup_cons.mp hfiles).1 (List.mem_append_left _ hfile)

/-- All sheets are added if the bake is never cancelled. -/
theorem Bakeable.exists_run_addSheets (h : b.Bakeable) (hnever : b.cancelled = .never)
    (hopens : store.OpensRows) {ds : List (SheetDecl c)} (hs : s.Holds (fun _ _ => True) b sheets)
    (hnamed : ∀ d ∈ ds, Text.isBlank d.name = false)
    (hsheets : b.bakedSheets = sheets ++ b.sheetFiles position ds) :
    ∃ s', (b.addSheets s position ds).run store = (.ok s', store) := by
  induction ds generalizing s position sheets with
  | nil => exact ⟨s, rfl⟩
  | cons d rest ih =>
    obtain ⟨hname, hrest⟩ := List.forall_mem_cons.mp hnamed
    have hgoes : b.cancelled position s.read = false := by rw [hnever, Cancellation.never]
    by_cases hpseudo : (SheetName.isPseudo d.name && !b.schema.allowPseudo) = true
    · have hskip := fileFor_of_pseudo s position hname hpseudo
      rw [sheetFiles_of_fileFor_none hskip] at hsheets
      obtain ⟨s', hs'⟩ := ih (hs.skip d.name) hrest hsheets
      exact ⟨s', run_addSheets_cons_eq_ok_iff.mpr ⟨hgoes, Or.inl ⟨hskip, hs'⟩⟩⟩
    · obtain ⟨file, hfile⟩ := SheetName.exists_fileName? d.name position
      have hcons : b.sheetFiles position (d :: rest) =
          (d, file) :: b.sheetFiles (position + 1) rest := by
        rw [sheetFiles, if_neg hpseudo, hfile]
      rw [hcons] at hsheets
      obtain ⟨es, hes⟩ := hopens file
      have hkept : store.rowKeys file = .ok (es.map Prod.fst) := by
        rw [ArtifactStore.rowKeys, hes]
        rfl
      obtain ⟨hnew, next, hadd⟩ := h.exists_addSheet hs hsheets (es.map Prod.fst)
      -- the sheet is now among those that are baked
      obtain ⟨s', hs'⟩ := ih (addSheet_holds hs trivial hnew hadd) hrest
        (hsheets.trans (List.append_cons _ _ _))
      exact ⟨s', run_addSheets_cons_eq_ok_iff.mpr ⟨hgoes,
        Or.inr ⟨file, _, next, fileFor_of_new hname hpseudo hfile hnew, hkept, hadd, hs'⟩⟩⟩

/-- A bake that is never cancelled succeeds if its sheets are such, on every store that can be
opened. -/
theorem Bakeable.exists_run (h : b.Bakeable) (hnever : b.cancelled = .never)
    (hopens : store.OpensRows)
    (hmanifest : ∃ es, store.entries ArtifactStore.manifestTable = .ok es) :
    ∃ out store', b.bake.run store = (.ok out, store') := by
  obtain ⟨s, hrun⟩ := h.exists_run_addSheets hnever hopens (BakeState.holds_start _ b) h.named rfl
  have hs := holds_of_run (A := fun _ _ => True) (fun _ => trivial) hrun
  obtain ⟨store', hsave⟩ := exists_save_plan hs hopens hmanifest
  refine ⟨b.link s, store', run_bake_eq_ok_iff.mpr ⟨s, hrun, ?_, rfl, hsave⟩⟩
  rw [hnever, Cancellation.never]

end Baker

/-! ### Quests -/

namespace Game

/-- A sheet of quests. -/
def questSheet : SheetDecl catalog := ⟨"Quests", ⟨3, by decide⟩⟩

/-- Two quests. The second one requires the first one and one that is missing. -/
def questJson : Json :=
  .array [.object [("Id", .int 1)],
    .object [("Id", .int 2), ("Prerequisites", .array [.string "1", .string "9"])]]

/-- A bake of the quests. -/
def questBaker : Baker catalog where
  schema := ⟨[questSheet], .pascal, false⟩
  source := fun sheet => (rowsOfJson sheet questJson).map some
  assets := .none
  cancelled := .never
  now := .epoch

/-- A quest that has nothing but prerequisites. -/
def questRow (id : IntKind.El .u32) (prerequisites : List SheetRef) : quest.Row :=
  (id, "", [], prerequisites, (IntKind.u32.zero, SheetRef.empty, ()), none, [], [], [], ())

/-- The rows of the quests. -/
def questRows : List quest.Row :=
  [questRow ⟨1, by decide⟩ [], questRow ⟨2, by decide⟩ [⟨"1", none⟩, ⟨"9", none⟩]]

theorem bakedSheets_questBaker : questBaker.bakedSheets = [(questSheet, "Quests")] := rfl

theorem keys_questRows : questRows.map quest.key = ["1", "2"] := by
  decide +kernel

/-- The cells of the quests. -/
def questRaws : List RawRow :=
  [[("Id", .int ⟨1, by decide⟩)],
    [("Id", .int ⟨2, by decide⟩), ("Prerequisites", .list [.text "1", .text "9"])]]

theorem rawRows_questBaker : questBaker.rawRows "Quests" = questRaws := by rfl

theorem forall₂_questRows : List.Forall₂ (fun raw row => quest.record.read .pascal raw = .ok row ∧
    isValidKey (quest.key row) = true) (questBaker.rawRows "Quests") questRows := by
  rw [rawRows_questBaker]
  exact .cons ⟨rfl, by decide +kernel⟩ (.cons ⟨rfl, by decide +kernel⟩ .nil)

theorem mem_questRows {row : quest.Row}
    (h : row ∈ (questBaker.ingested questSheet).table.rows.toList) : row ∈ questRows := by
  obtain ⟨raw, hraw, hread⟩ := Baker.exists_of_mem_ingested (b := questBaker) (d := questSheet) h
  obtain ⟨row', hrow', hread', -⟩ := exists_mem_of_forall₂ forall₂_questRows hraw
  obtain rfl := Except.ok.inj (hread'.symm.trans hread)
  exact hrow'

theorem nodup_questRows : (questRows.map quest.key).Nodup := by
  rw [keys_questRows]
  decide

theorem keys_ingested_questSheet : (questBaker.ingested questSheet).keys = ["1", "2"] :=
  (@Baker.keys_ingested catalog questBaker questSheet questRows forall₂_questRows
    nodup_questRows).trans keys_questRows

theorem size_ingested_questSheet : (questBaker.ingested questSheet).size = 2 := by
  rw [AnyTable.size, ← Table.length_keys]
  exact congrArg List.length keys_ingested_questSheet

theorem bakeable_questBaker : questBaker.Bakeable where
  named := List.forall_mem_singleton.mpr (by decide)
  files_nodup := by decide
  names_nodup := by decide
  source := List.forall_mem_singleton.mpr ⟨_, rfl⟩
  sheets_le := by decide
  rows_le := List.forall_mem_singleton.mpr (size_ingested_questSheet.trans_le (by decide))

theorem lawful_quest : quest.record.members.Lawful where
  keys := by decide
  converters := by
    simp [Members.Reverting, quest, reward, RecordType.cell, RecordType.plain, RecordType.table,
      Members.ofList, idMember, dataMember, rowsMember, ignoredMember, CellType.All, Members.All,
      MemberType.All, MemberType.Reverts]
  columns := by decide
  names := by decide

theorem plainRows_quest : quest.record.members.PlainRows := by decide

theorem static_quest : quest.record.members.Static := by decide

theorem plainId_quest : quest.PlainId := fun _ _ h => h.1 trivial

theorem resolutionBlind_quest : quest.ResolutionBlind := plainId_quest.resolutionBlind

theorem lawful_questSheets : ∀ d ∈ questBaker.schema.sheets,
    (catalog.type d.id).record.members.Lawful :=
  List.forall_mem_singleton.mpr lawful_quest

theorem static_questSheets : ∀ d ∈ questBaker.schema.sheets,
    (catalog.type d.id).record.members.Static :=
  List.forall_mem_singleton.mpr static_quest

theorem resolutionBlind_questSheets : ∀ d ∈ [questSheet], (catalog.type d.id).ResolutionBlind :=
  List.forall_mem_singleton.mpr resolutionBlind_quest

theorem keepsKeys_questBaker : questBaker.KeepsKeys :=
  Baker.keepsKeys_of_resolutionBlind resolutionBlind_questSheets

theorem exists_run_questBaker : ∃ out store, questBaker.bake.run .empty = (.ok out, store) :=
  bakeable_questBaker.exists_run rfl ArtifactStore.opensRows_empty ⟨[], rfl⟩

end Game

/-! ### Drafts -/

namespace Game

/-- Drafts, whose ids are computed by hand. A draft refers to itself by its title, which is its id
as long as this reference is not resolved. -/
def draft : TableType where
  record := ⟨⟨"Draft", none, false, true, ["get_id"]⟩,
    .ofList [dataMember "title" (.sheetRef "Draft"), dataMember "sequel" (.sheetRef "Draft")]⟩
  id := .text
  getId row := if (SheetRef.resolved row.1).isSome then "done" else SheetRef.key row.1

/-- The catalog of drafts. -/
def drafts : Catalog := ⟨[], [draft], List.nodup_singleton _⟩

/-- A sheet of drafts. -/
def draftSheet : SheetDecl drafts := ⟨"Drafts", ⟨0, by decide⟩⟩

/-- Two drafts. The first one has a sequel that is missing. -/
def draftJson : Json :=
  .array [.object [("Sequel", .string "c"), ("Title", .string "a")],
    .object [("Title", .string "b")]]

/-- A bake of the drafts. -/
def draftBaker : Baker drafts where
  schema := ⟨[draftSheet], .pascal, false⟩
  source := fun sheet => (rowsOfJson sheet draftJson).map some
  assets := .none
  cancelled := .never
  now := .epoch

/-- A draft by its title and that of its sequel. -/
def draftRow (title sequel : SheetRef) : draft.Row := (title, sequel, ())

/-- The rows of the drafts. -/
def draftRows : List draft.Row := [draftRow ⟨"a", none⟩ ⟨"c", none⟩, draftRow ⟨"b", none⟩ .empty]

theorem bakedSheets_draftBaker : draftBaker.bakedSheets = [(draftSheet, "Drafts")] := rfl

theorem keys_draftRows : draftRows.map draft.key = ["a", "b"] := rfl

theorem rawRows_draftBaker : draftBaker.rawRows "Drafts" =
    [[("Sequel", .text "c"), ("Title", .text "a")], [("Title", .text "b")]] := by rfl

theorem forall₂_draftRows : List.Forall₂ (fun raw row => draft.record.read .pascal raw = .ok row ∧
    isValidKey (draft.key row) = true) (draftBaker.rawRows "Drafts") draftRows := by
  rw [rawRows_draftBaker]
  exact .cons ⟨rfl, by decide +kernel⟩ (.cons ⟨rfl, by decide +kernel⟩ .nil)

theorem nodup_draftRows : (draftRows.map draft.key).Nodup := by
  rw [keys_draftRows]
  decide

theorem keys_ingested_draftSheet : (draftBaker.ingested draftSheet).keys = ["a", "b"] :=
  (@Baker.keys_ingested drafts draftBaker draftSheet draftRows forall₂_draftRows
    nodup_draftRows).trans keys_draftRows

theorem size_ingested_draftSheet : (draftBaker.ingested draftSheet).size = 2 := by
  rw [AnyTable.size, ← Table.length_keys]
  exact congrArg List.length keys_ingested_draftSheet

theorem bakeable_draftBaker : draftBaker.Bakeable where
  named := List.forall_mem_singleton.mpr (by decide)
  files_nodup := by decide
  names_nodup := by decide
  source := List.forall_mem_singleton.mpr ⟨_, rfl⟩
  sheets_le := by decide
  rows_le := List.forall_mem_singleton.mpr (size_ingested_draftSheet.trans_le (by decide))

theorem exists_run_draftBaker : ∃ out store, draftBaker.bake.run .empty = (.ok out, store) :=
  bakeable_draftBaker.exists_run rfl ArtifactStore.opensRows_empty ⟨[], rfl⟩

theorem lawful_draft : draft.record.members.Lawful where
  keys := by decide
  converters := by
    simp [Members.Reverting, draft, Members.ofList, dataMember, CellType.All, Members.All,
      MemberType.All, MemberType.Reverts]
  columns := by decide
  names := by decide

theorem plainRows_draft : draft.record.members.PlainRows := by decide

theorem static_draft : draft.record.members.Static := by decide

/-- After a bake of the drafts both titles are resolved and the missing sequel is not, so that both
drafts have the same key. -/
theorem drafts_of_run {store store' : ArtifactStore} {out : BakeOutput drafts}
    (h : draftBaker.bake.run store = (.ok out, store')) : ∃ l k k',
    out.container.tables.toList = [(draftBaker.ingested draftSheet).linked l] ∧
      ((draftBaker.ingested draftSheet).linked l).table.rows.toList =
        [draftRow ⟨"a", some k⟩ ⟨"c", none⟩, draftRow ⟨"b", some k'⟩ .empty] ∧
      ((draftBaker.ingested draftSheet).linked l).keys = ["done", "done"] := by
  obtain ⟨l, htables, hrow⟩ := Baker.exists_linker_of_run h
  have hfound : ∀ key, (l.row "Draft" key).isSome ↔ key ∈ ["a", "b"] := by
    intro key
    rw [hrow, ← keys_ingested_draftSheet]
    constructor
    · rintro ⟨p, hp, -, hkey⟩
      obtain rfl := List.mem_singleton.mp hp
      exact hkey
    · exact fun hkey => ⟨_, List.mem_singleton_self _, rfl, hkey⟩
  obtain ⟨k, hk⟩ := Option.isSome_iff_exists.mp ((hfound "a").mpr (by decide))
  obtain ⟨k', hk'⟩ := Option.isSome_iff_exists.mp ((hfound "b").mpr (by decide))
  have hmissing : l.row "Draft" "c" = none :=
    Option.not_isSome_iff_eq_none.mp ((hfound "c").not.mpr (by decide))
  have hrows : ((draftBaker.ingested draftSheet).linked l).table.rows.toList =
      [draftRow ⟨"a", some k⟩ ⟨"c", none⟩, draftRow ⟨"b", some k'⟩ .empty] := by
    refine (Baker.rows_linked (b := draftBaker) (d := draftSheet) lawful_draft plainRows_draft
      forall₂_draftRows nodup_draftRows l).trans ?_
    rw [← hk, ← hk', ← hmissing]
    rfl
  refine ⟨l, k, k', htables, hrows, ?_⟩
  rw [AnyTable.keys, Table.keys, hrows]
  rfl

end Game

end TypedSheets
