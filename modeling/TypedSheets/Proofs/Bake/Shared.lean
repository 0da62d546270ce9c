import TypedSheets.Proofs.Bake.Save

/-!
# Bakes that share a store

Several bakes may work on one store at the same time, and what each was told of the kept keys may be
outdated when it saves. Then it may leave rows that no sheet lists, but it never removes a row that
it writes: after every save the store holds the container of the bake that saved last.

## Main definitions

* `SharedBakes` — bakes that share a store, with their transactions in any order
* `SharedBakes.Invariant` — what holds at all times: nothing was saved since the last save

## Main results

* `SharedBakes.Invariant.step`, `SharedBakes.invariant_run` — it holds after any transactions
* `Baker.declares_of_run` — the schema of a bake declares the tables that it has baked
* `SharedBakes.load_of_last` — the container that is loaded is that of the last bake that saved
-/

namespace TypedSheets

open ArtifactStore

variable {c : Catalog}

/-! ### Transactions in any order -/

/-- Bakes that share a store. -/
structure SharedBakes (c : Catalog) where
  store : ArtifactStore
  /-- What is left of each bake. -/
  bakes : List (StoreProcess (Except BakeError (BakeOutput c)))
  /-- The bake that has saved last. -/
  last : Option Nat

namespace SharedBakes

/-- Bakes that have not begun, on a store. -/
def start (bakers : List (Baker c)) (store : ArtifactStore) : SharedBakes c :=
  ⟨store, bakers.map Baker.bake, none⟩

/-- The next transaction of a bake. -/
def step (σ : SharedBakes c) (i : Nat) : SharedBakes c :=
  match σ.bakes[i]? with
  | none => σ
  | some p =>
    { store := (p.step σ.store).2
      bakes := σ.bakes.set i (p.step σ.store).1
      last := if p.commits σ.store then some i else σ.last }

/-- The next transactions of bakes, in the order of a schedule. -/
def run (σ : SharedBakes c) (schedule : List Nat) : SharedBakes c := schedule.foldl step σ

end SharedBakes

/-! ### What holds at all times -/

namespace Baker

/-- What a bake saves, and its result, are those of a state that has baked all sheets. -/
def Ends (b : Baker c) (plan : SavePlan) (out : BakeOutput c) : Prop :=
  ∃ s : BakeState c, s.Holds (fun _ _ => True) b b.bakedSheets ∧ out = b.link s ∧
    plan = b.plan out.container s.baked

/-- A bake has not saved yet, or it has succeeded. -/
def Underway (b : Baker c) (p : StoreProcess (Except BakeError (BakeOutput c))) : Prop :=
  StoreProcess.SavesLast (fun _ _ => True) b.Ends p ∨ ∃ out, p = .done (.ok out)

/-- A store is as a bake with this result has saved it. -/
def HasSaved (b : Baker c) (out : BakeOutput c) (store : ArtifactStore) : Prop :=
  ∃ (before : ArtifactStore) (plan : SavePlan), b.Ends plan out ∧ before.save plan = .ok store

end Baker

namespace SharedBakes

variable {bakers : List (Baker c)} {σ : SharedBakes c}

/-- No bake goes on after it has saved, and the store is as the last one has saved it. -/
structure Invariant (bakers : List (Baker c)) (σ : SharedBakes c) : Prop where
  underway : ∀ (i : Nat) p, σ.bakes[i]? = some p →
    ∃ b : Baker c, bakers[i]? = some b ∧ b.Underway p
  saved : ∀ i, σ.last = some i → ∃ (b : Baker c) (out : BakeOutput c), bakers[i]? = some b ∧
    σ.bakes[i]? = some (.done (.ok out)) ∧ b.HasSaved out σ.store

theorem invariant_start (bakers : List (Baker c)) (store : ArtifactStore) :
    (start bakers store).Invariant bakers := by
  refine ⟨fun i p hp => ?_, fun i hi => by cases hi⟩
  rw [start, List.getElem?_map] at hp
  obtain ⟨b, hb, rfl⟩ := Option.map_eq_some_iff.mp hp
  exact ⟨b, hb, Or.inl (b.savesLast_bake _)⟩

/-- The processes after one of them was replaced by one of the same bake. -/
theorem Invariant.underway_set (h : σ.Invariant bakers) {i : Nat} {b : Baker c}
    {p : StoreProcess (Except BakeError (BakeOutput c))} (hb : bakers[i]? = some b)
    (hp : b.Underway p) :
    ∀ (j : Nat) q, (σ.bakes.set i p)[j]? = some q →
      ∃ b : Baker c, bakers[j]? = some b ∧ b.Underway q := by
  intro j q hq
  rw [List.getElem?_set] at hq
  split at hq
  · next hij =>
    split at hq
    · cases hq
      exact ⟨b, hij ▸ hb, hp⟩
    · cases hq
  · exact h.underway j q hq

/-- The next transaction of any bake keeps the invariant. -/
theorem Invariant.step (h : σ.Invariant bakers) (i : Nat) : (σ.step i).Invariant bakers := by
  rw [SharedBakes.step]
  split
  · exact h
  · next p hp =>
    obtain ⟨b, hb, hunderway⟩ := h.underway i p hp
    rcases hunderway with hsaves | ⟨out, rfl⟩
    · rcases hsaves.step_eq (s := σ.store) (fun _ => trivial) with
        ⟨hnext, hstore, hcommits⟩ | ⟨plan, out, store, hends, hsave, hstep, hcommits⟩
      -- it has asked for keys, or failed: the last save is still the last
      · refine ⟨h.underway_set hb (Or.inl hnext), fun j hj => ?_⟩
        rw [hcommits, if_neg (by decide)] at hj
        obtain ⟨b', out, hb', hdone, hsaved⟩ := h.saved j hj
        have hij : i ≠ j := by
          rintro rfl
          exact hsaves.not_done_ok (Option.some.inj (hp.symm.trans hdone))
        exact ⟨b', out, hb', by rwa [List.getElem?_set_ne hij], by rwa [hstore]⟩
      -- it has saved, so the store is now its own
      · rw [hstep, hcommits]
        refine ⟨h.underway_set hb (Or.inr ⟨out, rfl⟩), fun j hj => ?_⟩
        obtain rfl := Option.some.inj hj
        obtain ⟨hi, -⟩ := List.getElem?_eq_some_iff.mp hp
        exact ⟨b, out, hb, List.getElem?_set_self hi, σ.store, plan, hends, hsave⟩
    · -- a bake that is done does nothing
      have hset : σ.bakes.set i (.done (.ok out)) = σ.bakes := by
        refine List.ext_getElem? fun j => ?_
        rw [List.getElem?_set]
        split
        · next hij =>
          rw [← hij, hp]
          exact if_pos (List.getElem?_eq_some_iff.mp hp).1
        · rfl
      exact ⟨hset.symm ▸ h.underway, hset.symm ▸ h.saved⟩

/-- The invariant holds after any transactions in any order. -/
theorem invariant_run (bakers : List (Baker c)) (store : ArtifactStore) (schedule : List Nat) :
    ((start bakers store).run schedule).Invariant bakers := by
  suffices h : ∀ σ : SharedBakes c, σ.Invariant bakers → (σ.run schedule).Invariant bakers from
    h _ (invariant_start bakers store)
  induction schedule with
  | nil => exact fun σ h => h
  | cons i rest ih => exact fun σ h => ih _ (h.step i)

end SharedBakes

/-- A bake that is alone for as long as it takes succeeds as it does by itself. -/
theorem SharedBakes.run_replicate {σ : SharedBakes c} {i : Nat}
    {p : StoreProcess (Except BakeError (BakeOutput c))} {Q : SavePlan → BakeOutput c → Prop}
    (hsaves : StoreProcess.SavesLast (fun _ _ => True) Q p) (hp : σ.bakes[i]? = some p)
    {out : BakeOutput c} {store : ArtifactStore} (hrun : p.run σ.store = (.ok out, store)) :
    ∃ n, σ.run (List.replicate n i) = ⟨store, σ.bakes.set i (.done (.ok out)), some i⟩ := by
  have hstep : ∀ {σ : SharedBakes c} {p}, σ.bakes[i]? = some p → σ.step i =
      ⟨(p.step σ.store).2, σ.bakes.set i (p.step σ.store).1,
        if p.commits σ.store then some i else σ.last⟩ := by
    intro σ p hp
    rw [SharedBakes.step, hp]
  -- on the process: each turn takes one transaction of it, and the save is the last one
  induction hsaves generalizing σ with
  | failed e => cases hrun
  | @rowKeys file next hnext ih =>
    have hlength := (List.getElem?_eq_some_iff.mp hp).1
    obtain ⟨n, hn⟩ := @ih (σ.store.rowKeys file) trivial (σ.step i)
      (by rw [hstep hp]; exact List.getElem?_set_self hlength) (by rw [hstep hp]; exact hrun)
    refine ⟨n + 1, ?_⟩
    rw [List.replicate_succ, SharedBakes.run, List.foldl_cons]
    refine hn.trans ?_
    rw [hstep hp, List.set_set]
  | @save plan out' hQ =>
    refine ⟨1, ?_⟩
    rw [StoreProcess.run] at hrun
    rw [List.replicate_one, SharedBakes.run, List.foldl_cons, List.foldl_nil, hstep hp]
    split at hrun
    · next store₁ hsave =>
      cases hrun
      simp only [StoreProcess.step, StoreProcess.commits, hsave]
      rfl
    · cases hrun

/-! ### The tables of a bake are declared -/

namespace Baker

variable {b : Baker c}

/-- Sheets are skipped for their name only, and a sheet that is baked was not. -/
theorem not_skipped_of_mem_sheetFiles {position : Nat} {ds : List (SheetDecl c)}
    {p : SheetDecl c × String} (h : p ∈ b.sheetFiles position ds) :
    ¬ (SheetName.isPseudo p.1.name && !b.schema.allowPseudo) = true := by
  induction ds generalizing position with
  | nil => exact absurd h List.not_mem_nil
  | cons d rest ih =>
    rw [sheetFiles] at h
    split at h
    · exact ih h
    · next hd =>
      split at h
      · exact ih h
      · rcases List.mem_cons.mp h with rfl | h
        · exact hd
        · exact ih h

/-- Of sheets with distinct names, each is the first declaration of its name. -/
theorem find?_of_mem_sheetFiles {position : Nat} {ds : List (SheetDecl c)}
    (hnames : ((b.sheetFiles position ds).map fun p => p.1.name).Nodup)
    {p : SheetDecl c × String} (h : p ∈ b.sheetFiles position ds) :
    (ds.find? fun d => d.name == p.1.name) = some p.1 := by
  induction ds generalizing position with
  | nil => exact absurd h List.not_mem_nil
  | cons d rest ih =>
    obtain ⟨file, hfile⟩ := SheetName.exists_fileName? d.name position
    rw [sheetFiles] at h hnames
    split at h
    · next hskip =>
      rw [if_pos hskip] at hnames
      -- whether a sheet is skipped depends on its name, so this one has another name
      have hne : d.name ≠ p.1.name := fun heq => not_skipped_of_mem_sheetFiles h (heq ▸ hskip)
      rw [List.find?_cons_of_neg (by simpa using hne)]
      exact ih hnames h
    · next hbaked =>
      rw [if_neg hbaked, hfile, List.map_cons, List.nodup_cons] at hnames
      rw [hfile] at h
      rcases List.mem_cons.mp h with rfl | h
      · exact List.find?_cons_of_pos (beq_self_eq_true _)
      · have hne : d.name ≠ p.1.name := fun heq => hnames.1 (heq ▸ List.mem_map_of_mem h)
        rw [List.find?_cons_of_neg (by simpa using hne)]
        exact ih hnames.2 h

/-- The schema of a bake declares the tables that it has baked. -/
theorem declares_of_run {store store' : ArtifactStore} {out : BakeOutput c}
    (h : b.bake.run store = (.ok out, store')) :
    ∀ t ∈ out.container.tables.toList, b.schema.Declares t := by
  obtain ⟨s, hs, rfl, -⟩ := exists_holds_of_run h
  have hnames : (b.bakedSheets.map fun p => p.1.name).Nodup := by
    have hnodup := hs.indexed.nodup
    rw [Container.sheetNames, hs.tables_eq, List.map_map] at hnodup
    simpa only [Function.comp_def, name_ingested] using hnodup
  rw [hs.tables_link]
  refine List.forall_mem_map.mpr fun p hp => ⟨p.1, ?_, rfl⟩
  rw [AnyTable.name_linked, name_ingested]
  exact find?_of_mem_sheetFiles hnames hp

end Baker

/-! ### Loading what was saved last -/

/-- Nothing in a baked container, or in its manifest, is too long for a length to be told. -/
structure Baker.Fits (b : Baker c) (out : Container c) : Prop where
  manifest : (b.manifestOf out).Fits
  rows : ∀ t ∈ out.tables.toList, ∀ row ∈ t.table.rows.toList,
    (c.type t.id).record.members.Fits row

/-- One baked sheet fits if its names, its keys and its rows do. -/
theorem Baker.fits_of_singleton {b : Baker c} {out : Container c} {d : SheetDecl c} {file : String}
    {l : Linker} (hsheets : b.bakedSheets = [(d, file)])
    (htables : out.tables.toList = [(b.ingested d).linked l]) (htime : Bytes.TextFits b.now.text)
    (hname : Bytes.TextFits d.name) (hfile : Bytes.TextFits file)
    (hrecord : Bytes.TextFits (c.type d.id).name)
    (hkeys : ListFits ((b.ingested d).linked l).keys)
    (hkey : ∀ key ∈ ((b.ingested d).linked l).keys, Bytes.TextFits key)
    (hrows : ∀ row ∈ ((b.ingested d).linked l).table.rows.toList,
      (c.type d.id).record.members.Fits row) : b.Fits out := by
  have hartifacts : (b.manifestOf out).sheets = [((b.ingested d).linked l).artifact file] := by
    rw [manifestOf, htables, hsheets]
    rfl
  have hlinked : (((b.ingested d).linked l).artifact file).name = d.name := b.name_ingested d
  refine ⟨⟨htime, ?_, ?_⟩, ?_⟩
  · rw [hartifacts, ListFits, List.length_singleton]
    decide
  · rw [hartifacts]
    exact List.forall_mem_singleton.mpr ⟨hlinked ▸ hname, hfile, hrecord, hkeys, hkey⟩
  · rw [htables]
    exact List.forall_mem_singleton.mpr hrows

namespace Baker

variable {b : Baker c} {s : BakeState c} {out : BakeOutput c} {plan : SavePlan}
  {store store' : ArtifactStore}

/-- The sets and maps in the rows of a linked table are sorted. -/
theorem canonical_linked {d : SheetDecl c} (hkeys : (c.type d.id).record.members.StaticKeys)
    (l : Linker) : ∀ row ∈ ((b.ingested d).linked l).table.rows.toList,
      (c.type d.id).record.members.Canonical row := by
  intro row hrow
  obtain ⟨row, -, rfl, raw, -, hread⟩ := exists_of_mem_linked hrow
  exact Members.canonical_relinked l _ _ hkeys (Members.canonical_of_read hkeys hread)

/-- The rows of every sheet that a bake has saved are given when they are asked for, whatever keys
it was told of. -/
theorem rows_of_saved {A : String → Except BakeError (List String) → Prop}
    (hs : s.Holds A b b.bakedSheets) (hkeys : b.KeepsKeys)
    (hsaved : Saved (b.plan (b.link s).container s.baked) store store') :
    List.Forall₂ (fun t file => ∀ kept, kept ⊆ t.table.encode →
        store'.rows file (kept.map Prod.fst) = .ok kept)
      (b.link s).container.tables.toList (b.bakedSheets.map Prod.snd) := by
  rw [hs.tables_link, List.forall₂_map_left_iff, List.forall₂_map_right_iff, List.forall₂_same]
  intro sheet hsheet kept hkept
  obtain ⟨p, hp, hof⟩ := exists_mem_of_forall₂ hs.plan_sheets hsheet
  obtain ⟨es, -, htable⟩ := hsaved.sheet p hp
  have hlinked : p.rows.map Prod.fst =
      ((b.ingested sheet.1).linked (s.container.linker b.assets)).keys := by
    rw [hof.rows_eq, Table.map_fst_encode]
    rfl
  -- linking leaves the keys distinct, so no row is written over another
  have hnodup : (p.rows.map Prod.fst).Nodup := by
    rw [hlinked, hkeys sheet hsheet]
    exact (b.indexed_ingested sheet.1).nodup
  rw [hof.fileName_eq] at htable
  exact rows_updated htable hnodup (hof.rows_eq.symm ▸ hkept)

/-- What a bake has saved is loaded again. -/
theorem HasSaved.run_load {schema : ContainerSchema c} (h : b.HasSaved out store)
    (htypes : ∀ d ∈ b.schema.sheets, (c.type d.id).record.members.Static) (hkeys : b.KeepsKeys)
    (hfits : b.Fits out.container)
    (hdeclares : ∀ t ∈ out.container.tables.toList, schema.Declares t) :
    schema.load.run store = (.ok out.container, store) := by
  obtain ⟨before, plan, ⟨s, hs, rfl, rfl⟩, hsave⟩ := h
  have hsaved := saved_of_save (hs.map_fileName_plan ▸ hs.files_nodup) hsave
  have hindexed := indexed_link hs hkeys
  have hmanifest := manifest_of_saved hs hsaved hfits.manifest
  have hrows := (rows_of_saved hs hkeys hsaved).imp fun t file h =>
    t.table.map_fst_encode ▸ h _ (List.Subset.refl _)
  -- manifest and rows are those of the plan, so it remains that rows decode
  refine ContainerSchema.run_load hindexed hmanifest rfl rfl hrows fun t ht =>
    ⟨hdeclares t ht, (hindexed.tables t ht).restore_encode fun row hrow => ?_⟩
  have hfit := hfits.rows t ht row hrow
  rw [hs.tables_link] at ht
  obtain ⟨p, hp, rfl⟩ := List.mem_map.mp ht
  have hstatic := htypes p.1 (mem_of_mem_sheetFiles hp)
  exact RecordType.decode_encode hstatic
    (canonical_linked (Members.staticKeys_of_static _ hstatic) _ row hrow) hfit

end Baker

/-- After any transactions of bakes that share a store, in any order, the bake that has saved last
has succeeded, and loading gives its container: the naming, the sheets and rows in their order, and
the rows themselves, with what their references are resolved to and with the members that no column
shows. The schema has to declare each sheet with the record type that it was baked with, and may
declare more. In particular a table is restored from the bytes of its rows.

Dynamic values have no encoding, so records hold none, and rows have to keep their keys when they
are linked. -/
theorem SharedBakes.load_of_last {bakers : List (Baker c)} (store : ArtifactStore)
    (htypes : ∀ b ∈ bakers, ∀ d ∈ b.schema.sheets, (c.type d.id).record.members.Static)
    (hkeys : ∀ b ∈ bakers, b.KeepsKeys) :
    (∀ schedule i, ((start bakers store).run schedule).last = some i →
      ∃ b out, bakers[i]? = some b ∧
        ((start bakers store).run schedule).bakes[i]? = some (.done (.ok out)) ∧
        ∀ schema : ContainerSchema c, b.Fits out.container →
          (∀ t ∈ out.container.tables.toList, schema.Declares t) →
          schema.load.run ((start bakers store).run schedule).store =
            (.ok out.container, ((start bakers store).run schedule).store)) ∧
    ∀ (t : TableType) (table : Table t), t.record.members.Static → table.Indexed →
      (∀ row ∈ table.rows.toList, t.record.members.Canonical row ∧ t.record.members.Fits row) →
        Table.restore t table.name table.encode = .ok table := by
  constructor
  · intro schedule i hi
    obtain ⟨b, out, hb, hdone, hsaved⟩ := (invariant_run bakers store schedule).saved i hi
    exact ⟨b, out, hb, hdone, fun schema hfits hdeclares =>
      hsaved.run_load (htypes b (List.mem_of_getElem? hb)) (hkeys b (List.mem_of_getElem? hb)) hfits
        hdeclares⟩
  · intro t table hstatic hindexed hrows
    exact hindexed.restore_encode fun row hrow =>
      RecordType.decode_encode hstatic (hrows row hrow).1 (hrows row hrow).2

/-! ### Quests -/

namespace Game

open Bytes

theorem fits_questRow (l : Linker) (id : IntKind.El .u32) {prerequisites : List SheetRef}
    (hlist : ListFits prerequisites) (hkeys : ∀ r ∈ prerequisites, TextFits r.key) :
    quest.record.members.Fits
      (quest.record.members.mapRefs l.refMap (questRow id prerequisites)) := by
  have hempty : TextFits "" := by decide
  refine ⟨⟨trivial, trivial⟩, ⟨trivial, hempty⟩, ⟨listFits_nil, fun y hy => ?_⟩,
    ⟨trivial, ?_, fun y hy => ?_⟩,
    ⟨trivial, trivial, ⟨trivial, trivial⟩, ⟨trivial, hempty⟩, trivial⟩,
    ⟨trivial, trivial, fun y hy => ?_⟩, ⟨trivial, listFits_nil, fun y hy => ?_⟩,
    ⟨trivial, listFits_nil, fun y hy => ?_⟩, ⟨listFits_nil, fun y hy => ?_⟩, trivial⟩
  · exact absurd hy List.not_mem_nil
  · exact (List.length_map _).trans_lt hlist
  · obtain ⟨r, hr, rfl⟩ := List.mem_map.mp hy
    exact hkeys r hr
  · cases hy
  · exact absurd hy List.not_mem_nil
  · exact absurd hy List.not_mem_nil
  · exact absurd hy List.not_mem_nil

theorem fits_questRows (l : Linker) : ∀ row ∈ questRows,
    quest.record.members.Fits (quest.record.members.mapRefs l.refMap row) :=
  List.forall_mem_cons.mpr ⟨fits_questRow l _ (by decide) (by decide),
    List.forall_mem_singleton.mpr (fits_questRow l _ (by decide) (by decide))⟩

theorem fits_linked_quests (l : Linker) :
    ∀ row ∈ ((questBaker.ingested questSheet).linked l).table.rows.toList,
      (catalog.type questSheet.id).record.members.Fits row := by
  intro row hrow
  obtain ⟨row, hmem, rfl, raw, -, hread⟩ :=
    Baker.exists_of_mem_linked (b := questBaker) (d := questSheet) hrow
  have hlawful := lawful_questSheets questSheet (List.mem_singleton.mpr rfl)
  rw [hlawful.relinked_eq_mapRefs l plainRows_quest _ hread]
  exact fits_questRows l row (mem_questRows hmem)

theorem fits_of_run {store store' : ArtifactStore} {out : BakeOutput catalog}
    (h : questBaker.bake.run store = (.ok out, store')) : questBaker.Fits out.container := by
  obtain ⟨l, htables⟩ := Baker.tables_of_run h
  rw [bakedSheets_questBaker, List.map_singleton] at htables
  have hkeys : ((questBaker.ingested questSheet).linked l).keys = ["1", "2"] := by
    rw [AnyTable.keys_linked (t := questBaker.ingested questSheet) resolutionBlind_quest,
      keys_ingested_questSheet]
  refine Baker.fits_of_singleton bakedSheets_questBaker htables (by decide) (by decide) (by decide)
    (by decide) ?_ ?_ (fits_linked_quests l)
  · rw [hkeys]
    decide
  · rw [hkeys]
    decide

/-- Two bakes of the quests that share an empty store. -/
def questBakes : SharedBakes catalog := .start [questBaker, questBaker] .empty

/-- One of the bakes after the other, the second one ends last. -/
theorem exists_run_questBakes : ∃ schedule store out,
    questBaker.bake.run store = (.ok out, (questBakes.run schedule).store) ∧
      (questBakes.run schedule).last = some 1 ∧
      (questBakes.run schedule).bakes[1]? = some (.done (.ok out)) := by
  have hsaves := questBaker.savesLast_bake fun _ _ => True
  obtain ⟨out, store, h⟩ := exists_run_questBaker
  obtain ⟨s, -, -, -, hsaved⟩ := Baker.saved_of_run h
  obtain ⟨es, -, hmanifest⟩ := hsaved.manifest
  obtain ⟨out', store', h'⟩ :=
    bakeable_questBaker.exists_run rfl hsaved.opensRows ⟨_, entries_of_table? hmanifest⟩
  obtain ⟨m, hm⟩ := SharedBakes.run_replicate hsaves (σ := questBakes) (i := 0) rfl h
  have hnext : questBaker.bake.run (questBakes.run (List.replicate m 0)).store =
      (.ok out', store') := by
    rw [hm]
    exact h'
  obtain ⟨n, hn⟩ := SharedBakes.run_replicate hsaves (i := 1) (by rw [hm]; rfl) hnext
  have hrun : questBakes.run (List.replicate m 0 ++ List.replicate n 1) = _ :=
    List.foldl_append.trans hn
  refine ⟨List.replicate m 0 ++ List.replicate n 1, store, out', ?_, ?_, ?_⟩
  · rw [hrun]
    exact h'
  · rw [hrun]
  · rw [hrun, hm]
    rfl

end Game

/-- Of two bakes of the quests on one store, the second one saves last, and what is loaded then is
its container. -/
theorem SharedBakes.load_of_last_quests : ∃ schedule out,
    (Game.questBakes.run schedule).last = some 1 ∧
      (Game.questBakes.run schedule).bakes[1]? = some (.done (.ok out)) ∧
      Game.questBaker.schema.load.run (Game.questBakes.run schedule).store =
        (.ok out.container, (Game.questBakes.run schedule).store) := by
  obtain ⟨schedule, store, out, hrun, hlast, hdone⟩ := Game.exists_run_questBakes
  have htypes : ∀ b ∈ [Game.questBaker, Game.questBaker], ∀ d ∈ b.schema.sheets,
      (Game.catalog.type d.id).record.members.Static :=
    List.forall_mem_cons.mpr ⟨Game.static_questSheets,
      List.forall_mem_singleton.mpr Game.static_questSheets⟩
  have hkeys : ∀ b ∈ [Game.questBaker, Game.questBaker], b.KeepsKeys :=
    List.forall_mem_cons.mpr ⟨Game.keepsKeys_questBaker,
      List.forall_mem_singleton.mpr Game.keepsKeys_questBaker⟩
  obtain ⟨b, out', hb, hdone', hload⟩ :=
    (SharedBakes.load_of_last .empty htypes hkeys).1 schedule 1 hlast
  obtain rfl : Game.questBaker = b := Option.some.inj hb
  obtain rfl : out = out' := by
    have hsame := hdone.symm.trans hdone'
    cases hsame
    rfl
  exact ⟨schedule, out, hlast, hdone, hload _ (Game.fits_of_run hrun) (Baker.declares_of_run hrun)⟩

/-! ### Drafts -/

namespace Game

open Bytes

theorem fits_draftRow {title sequel : SheetRef} (htitle : TextFits title.key)
    (hsequel : TextFits sequel.key) : draft.record.members.Fits (draftRow title sequel) :=
  ⟨⟨trivial, htitle⟩, ⟨trivial, hsequel⟩, trivial⟩

theorem fits_of_run_draftBaker {store store' : ArtifactStore} {out : BakeOutput drafts}
    (h : draftBaker.bake.run store = (.ok out, store')) : draftBaker.Fits out.container := by
  obtain ⟨l, k, k', htables, hrows, hkeys⟩ := drafts_of_run h
  have htext : TextFits "a" ∧ TextFits "b" ∧ TextFits "c" ∧ TextFits "" := by decide
  refine Baker.fits_of_singleton bakedSheets_draftBaker htables (by decide) (by decide)
    (by decide) (by decide) ?_ ?_ ?_
  · rw [hkeys]
    decide
  · rw [hkeys]
    decide
  · rw [hrows]
    exact List.forall_mem_cons.mpr ⟨fits_draftRow htext.1 htext.2.2.1,
      List.forall_mem_singleton.mpr (fits_draftRow htext.2.1 htext.2.2.2)⟩

/-- The manifest of the baked drafts has one key twice, which no schema accepts. -/
theorem not_loadable_of_run {store store' : ArtifactStore} {out : BakeOutput drafts}
    (h : draftBaker.bake.run store = (.ok out, store')) (schema : ContainerSchema drafts) :
    ¬ schema.Loadable store' := by
  obtain ⟨l, -, -, htables, -, hkeys⟩ := drafts_of_run h
  have hmanifest : store'.manifest = .ok (some (draftBaker.manifestOf out.container)) := by
    have hfits := fits_of_run_draftBaker h
    obtain ⟨s, hs, rfl, -, hsaved⟩ := Baker.saved_of_run h
    exact Baker.manifest_of_saved hs hsaved hfits.manifest
  have hsheet : ((draftBaker.ingested draftSheet).linked l).artifact "Drafts" ∈
      (draftBaker.manifestOf out.container).sheets := by
    rw [Baker.manifestOf, htables]
    exact List.mem_singleton_self _
  rintro (hnone | ⟨m, hsome, -, -, hloadable⟩)
  · cases hmanifest.symm.trans hnone
  · cases hmanifest.symm.trans hsome
    have hnodup : ((draftBaker.ingested draftSheet).linked l).keys.Nodup :=
      (hloadable _ hsheet).nodup
    rw [hkeys] at hnodup
    exact absurd hnodup (by decide)

end Game

/-- Rows have to keep their keys when they are linked. What a bake of the drafts has saved fits and
is declared, but it is not loaded. -/
theorem SharedBakes.not_loaded_of_last_drafts : ∃ schedule out store e,
    (SharedBakes.start [Game.draftBaker] .empty).run schedule =
        ⟨store, [.done (.ok out)], some 0⟩ ∧
      (∀ d ∈ Game.draftBaker.schema.sheets, (Game.drafts.type d.id).record.members.Static) ∧
      Game.draftBaker.Fits out.container ∧
      (∀ t ∈ out.container.tables.toList, Game.draftBaker.schema.Declares t) ∧
      Game.draftBaker.schema.load.run store = (.error e, store) := by
  obtain ⟨out, store, h⟩ := Game.exists_run_draftBaker
  obtain ⟨n, hn⟩ := SharedBakes.run_replicate (Game.draftBaker.savesLast_bake fun _ _ => True)
    (σ := SharedBakes.start [Game.draftBaker] .empty) (i := 0) rfl h
  obtain ⟨e, hload⟩ := ContainerSchema.exists_error_of_not_loadable
    (Game.not_loadable_of_run h Game.draftBaker.schema)
  exact ⟨List.replicate n 0, out, store, e, hn,
    List.forall_mem_singleton.mpr Game.static_draft, Game.fits_of_run_draftBaker h,
    Baker.declares_of_run h, hload⟩

end TypedSheets
