import TypedSheets.Proofs.Artifact.Process
import TypedSheets.Proofs.Bake.Serve

/-!
# Loading while bakes commit

Loading reads the manifest in one transaction, and the rows of each sheet in another one. Each read
sees the store as one bake has left it, but a bake may commit between two reads. Then the sheets and
the order of their rows may be those of one bake, and the rows those of another one. Loading does
not notice: the rows are there and have the right keys. But references that were resolved in one
order of rows are followed in the other one.

## Main definitions

* `SharedLoad` — bakes and a process that loads, with their transactions in any order
* `SharedLoad.Committed` — a store is as it was at first, or as a bake has saved it

## Main results

* `SharedLoad.sees_of_run` — loading ends with what its reads have seen
* `SharedLoad.load_of_reads` — what is loaded, and that it is one bake's if none commits in between
* `SharedLoad.load_mixes_bakes` — else it may be of two bakes, with references to other rows
-/

namespace TypedSheets

open ArtifactStore

variable {c : Catalog}

/-! ### Transactions in any order -/

/-- Whose transaction is next. -/
inductive Turn where
  | loader
  | baker (i : Nat)

/-- The bake whose turn it is. -/
def Turn.baker? : Turn → Option Nat
  | loader => none
  | baker i => some i

/-- Bakes that share a store, and a process that loads from it. -/
structure SharedLoad (c : Catalog) where
  shared : SharedBakes c
  /-- What is left of the process that loads. -/
  loader : StoreProcess (Except BakeError (Container c))

namespace SharedLoad

/-- Bakes and a process that loads which have not begun, on a store. -/
def start (bakers : List (Baker c)) (schema : ContainerSchema c) (store : ArtifactStore) :
    SharedLoad c :=
  ⟨.start bakers store, schema.load⟩

/-- The next transaction of the one whose turn it is. -/
def step (σ : SharedLoad c) : Turn → SharedLoad c
  | .loader =>
    { shared := { σ.shared with store := (σ.loader.step σ.shared.store).2 }
      loader := (σ.loader.step σ.shared.store).1 }
  | .baker i => { σ with shared := σ.shared.step i }

/-- The next transactions, in the order of the turns. -/
def run (σ : SharedLoad c) (turns : List Turn) : SharedLoad c := turns.foldl step σ

/-- At these turns nothing is saved. -/
def Undisturbed (σ : SharedLoad c) (turns : List Turn) : Prop :=
  ∀ n, (σ.run (turns.take n)).shared.store = σ.shared.store

variable {σ : SharedLoad c} {bakers : List (Baker c)} {store : ArtifactStore}

theorem run_append (σ : SharedLoad c) (first rest : List Turn) :
    σ.run (first ++ rest) = (σ.run first).run rest := List.foldl_append

theorem step_loader (h : σ.loader.ReadsOnly) :
    σ.step .loader = { σ with loader := (σ.loader.step σ.shared.store).1 } := by
  rw [step, h.step_store]

theorem readsOnly_step (h : σ.loader.ReadsOnly) (turn : Turn) : (σ.step turn).loader.ReadsOnly := by
  cases turn with
  | loader => exact h.step _
  | baker i => exact h

/-- Bakes are not disturbed by a process that only reads. -/
theorem shared_run (h : σ.loader.ReadsOnly) (turns : List Turn) :
    (σ.run turns).shared = σ.shared.run (turns.filterMap Turn.baker?) := by
  induction turns generalizing σ with
  | nil => rfl
  | cons turn rest ih =>
    have hrest := ih (readsOnly_step h turn)
    cases turn with
    | loader => exact hrest.trans (by rw [step_loader h]; rfl)
    | baker i => exact hrest

theorem undisturbed_replicate (h : σ.loader.ReadsOnly) (n : Nat) :
    σ.Undisturbed (List.replicate n .loader) := by
  intro taken
  have hnone : (List.replicate (min taken n) Turn.loader).filterMap Turn.baker? = [] := by
    refine List.filterMap_eq_nil_iff.mpr fun turn hturn => ?_
    rw [List.eq_of_mem_replicate hturn]
    rfl
  rw [List.take_replicate, shared_run h, hnone]
  rfl

/-- The process that loads has not begun before its first turn. -/
theorem loader_run {turns : List Turn} (h : .loader ∉ turns) : (σ.run turns).loader = σ.loader := by
  induction turns generalizing σ with
  | nil => rfl
  | cons turn rest ih =>
    rw [List.mem_cons, not_or] at h
    cases turn with
    | loader => exact absurd rfl h.1
    | baker i => exact ih h.2

/-- A process that ends has seen the stores that were there at its turns. -/
theorem sees_of_run {H : ArtifactStore → Prop} {turns : List Turn}
    {r : Except BakeError (Container c)} (h : σ.loader.ReadsOnly)
    (hH : ∀ n, H (σ.run (turns.take n)).shared.store) (hdone : (σ.run turns).loader = .done r) :
    StoreProcess.Sees H σ.loader r := by
  induction turns generalizing σ with
  | nil =>
    have hloader : σ.loader = .done r := hdone
    rw [hloader]
    exact .done r
  | cons turn rest ih =>
    -- the stores at the turns that are left are those from the second one on
    have hnext := ih (readsOnly_step h turn) (fun n => hH (n + 1)) hdone
    cases turn with
    | loader => exact h.sees_of_step (hH 0) hnext
    | baker i => exact hnext

/-- If nothing is saved meanwhile, a process that ends does so as it does by itself. -/
theorem Undisturbed.run_loader {turns : List Turn} {r : Except BakeError (Container c)}
    (hundisturbed : σ.Undisturbed turns) (h : σ.loader.ReadsOnly)
    (hdone : (σ.run turns).loader = .done r) :
    σ.loader.run σ.shared.store = (r, σ.shared.store) :=
  have hsees : StoreProcess.Sees (fun s => s = σ.shared.store) σ.loader r :=
    sees_of_run h hundisturbed hdone
  hsees.run_eq

/-- Bakes that are alone. -/
theorem run_bakers (σ : SharedLoad c) (schedule : List Nat) :
    σ.run (schedule.map .baker) = { σ with shared := σ.shared.run schedule } := by
  induction schedule generalizing σ with
  | nil => rfl
  | cons i rest ih => exact ih _

/-- A process that only reads, and is alone for as long as it takes, ends as it does by itself. -/
theorem exists_run_loader {p : StoreProcess (Except BakeError (Container c))} (h : p.ReadsOnly)
    (shared : SharedBakes c) : ∃ n, (mk shared p).run (List.replicate n .loader) =
      ⟨shared, .done (p.run shared.store).1⟩ := by
  induction p with
  | done r => exact ⟨0, rfl⟩
  | manifest next ih =>
    obtain ⟨n, hn⟩ := ih shared.store.manifest (h _)
    exact ⟨n + 1, hn⟩
  | rowKeys file next ih =>
    obtain ⟨n, hn⟩ := ih (shared.store.rowKeys file) (h _)
    exact ⟨n + 1, hn⟩
  | rows file keys next ih =>
    obtain ⟨n, hn⟩ := ih (shared.store.rows file keys) (h _)
    exact ⟨n + 1, hn⟩
  | save plan next => exact absurd h id

/-- A bake commits, loading takes its first transaction, another bake commits, and loading ends. -/
theorem exists_run_around {b₁ b₂ : Baker c} (schema : ContainerSchema c)
    {store₁ store₂ : ArtifactStore} {out₁ out₂ : BakeOutput c}
    {r : Except BakeError (Container c)} (h₁ : b₁.bake.run store = (.ok out₁, store₁))
    (h₂ : b₂.bake.run store₁ = (.ok out₂, store₂))
    (hload : ((schema.load.step store₁).1.run store₂).1 = r) :
    ∃ turns, (start [b₁, b₂] schema store).run turns =
      ⟨⟨store₂, [.done (.ok out₁), .done (.ok out₂)], some 1⟩, .done r⟩ := by
  obtain ⟨i, hi⟩ := SharedBakes.run_replicate (b₁.savesLast_bake fun _ _ => True)
    (σ := SharedBakes.start [b₁, b₂] store) (i := 0) rfl h₁
  obtain ⟨j, hj⟩ := SharedBakes.run_replicate (b₂.savesLast_bake fun _ _ => True)
    (σ := (SharedBakes.start [b₁, b₂] store).run (List.replicate i 0)) (i := 1)
    (by rw [hi]; rfl) (by rw [hi]; exact h₂)
  obtain ⟨n, hn⟩ := exists_run_loader (schema.readsOnly_load.step store₁)
    ⟨store₂, [.done (.ok out₁), .done (.ok out₂)], some 1⟩
  -- the first bake, one read of the manifest, the second bake, and then all other reads
  refine ⟨(List.replicate i 0).map .baker ++ .loader ::
    ((List.replicate j 1).map .baker ++ List.replicate n .loader), ?_⟩
  rw [run_append, run_bakers, run, List.foldl_cons, step_loader schema.readsOnly_load]
  change run _ _ = _
  rw [run_append, run_bakers]
  simp only [start]
  rw [hj, hi, ← hload]
  exact hn

/-! ### What is seen -/

/-- A store is as it was at first, or as a bake has saved it. -/
def Committed (bakers : List (Baker c)) (first store : ArtifactStore) : Prop :=
  store = first ∨ ∃ b ∈ bakers, ∃ out, b.HasSaved out store

/-- The next transaction of a bake leaves the store, or the bake has saved it. -/
theorem committed_step {shared : SharedBakes c} (h : shared.Invariant bakers)
    (hstore : Committed bakers store shared.store) (i : Nat) :
    Committed bakers store (shared.step i).store := by
  rw [SharedBakes.step]
  split
  · exact hstore
  · next p hp =>
    obtain ⟨b, hb, hsaves | ⟨out, rfl⟩⟩ := h.underway i p hp
    · -- either it reads, or it saves and is done
      rcases hsaves.step_eq (s := shared.store) (fun _ => trivial) with
        ⟨-, hsame, -⟩ | ⟨plan, out, next, hends, hsave, hstep, -⟩
      · rwa [hsame]
      · rw [hstep]
        exact Or.inr ⟨b, List.mem_of_getElem? hb, out, shared.store, plan, hends, hsave⟩
    · exact hstore

/-- At any time the store is as it was at first, or as a bake has saved it. -/
theorem committed_run (bakers : List (Baker c)) (store : ArtifactStore) (schedule : List Nat) :
    Committed bakers store ((SharedBakes.start bakers store).run schedule).store := by
  suffices h : ∀ shared : SharedBakes c, shared.Invariant bakers →
      Committed bakers store shared.store → Committed bakers store (shared.run schedule).store from
    h _ (SharedBakes.invariant_start bakers store) (Or.inl rfl)
  induction schedule with
  | nil => exact fun _ _ h => h
  | cons i rest ih =>
    exact fun shared hshared h => ih _ (hshared.step i) (committed_step hshared h i)

/-- What is loaded while bakes commit. Its sheets, with their record types and the keys of their
rows in order, are those of the manifest that one committed bake has left, and the rows of each
sheet are those that one committed bake has left under these keys. If no bake commits while it is
loaded, it is the container of the bake that has saved last.

Each read is one transaction, so it cannot see half of a save. But the reads need not all see the
same bake. -/
theorem load_of_reads (bakers : List (Baker c)) (store : ArtifactStore) (schema : ContainerSchema c)
    (turns : List Turn) {container : Container c}
    (h : ((start bakers schema store).run turns).loader = .done (.ok container)) :
    schema.PutTogether (Committed bakers store) container ∧
      ∀ before during, turns = before ++ during → .loader ∉ before →
        ((start bakers schema store).run before).Undisturbed during →
        ∀ i, ((start bakers schema store).run before).shared.last = some i →
          ∃ b out, bakers[i]? = some b ∧
            ((start bakers schema store).run before).shared.bakes[i]? = some (.done (.ok out)) ∧
            ((∀ d ∈ b.schema.sheets,
                (c.type d.id).record.members.Static ∧ (c.type d.id).ResolutionBlind) →
              b.Fits out.container → (∀ t ∈ out.container.tables.toList, schema.Declares t) →
                container = out.container) := by
  have hreads := schema.readsOnly_load
  have hshared : ∀ turns, ((start bakers schema store).run turns).shared =
      (SharedBakes.start bakers store).run (turns.filterMap Turn.baker?) := shared_run hreads
  constructor
  · refine ContainerSchema.putTogether_of_sees (sees_of_run hreads (fun n => ?_) h)
    rw [hshared]
    exact committed_run bakers store _
  · rintro before during rfl hbefore hundisturbed i hi
    rw [hshared] at hi
    obtain ⟨b, out, hb, hdone, hsaved⟩ := (SharedBakes.invariant_run bakers store _).saved i hi
    refine ⟨b, out, hb, by rw [hshared, hdone], fun htypes hfits hdeclares => ?_⟩
    -- from its first turn on, the process that loads sees one store
    have hloader : ((start bakers schema store).run before).loader = schema.load :=
      loader_run hbefore
    rw [run_append] at h
    have hload := hundisturbed.run_loader (hloader.symm ▸ hreads) h
    rw [hloader, hshared, hsaved.run_load (fun d hd => (htypes d hd).1)
      (Baker.keepsKeys_of_resolutionBlind fun d hd => (htypes d hd).2) hfits hdeclares] at hload
    exact (Except.ok.inj (congrArg Prod.fst hload)).symm

end SharedLoad

/-! ### References -/

/-- What a reference is resolved to is the place of a row with its key. -/
def Container.Addresses (b : Container c) (r : TargetRef) : Prop :=
  ∀ k, r.ref.resolved = some k →
    ∃ t, b.tables[k.sheet.toNat]? = some t ∧ t.keys[k.row.toNat]? = some r.ref.key

/-- In the container of one bake every resolved reference is resolved to the place of its key. -/
theorem Baker.addresses_of_run {b : Baker c} {store store' : ArtifactStore} {out : BakeOutput c}
    (hsource : b.source.Unresolved) (hids : ∀ d ∈ b.schema.sheets, (c.type d.id).ResolutionBlind)
    (h : b.bake.run store = (.ok out, store')) :
    ∀ t ∈ out.container.tables.toList, ∀ row ∈ t.table.rows.toList,
      (c.type t.id).record.members.EveryRef out.container.Addresses (fun _ => True) row := by
  refine everyRef_of_run hsource (keepsKeys_of_resolutionBlind hids) h fun r hfirst k hk => ?_
  obtain ⟨t, ht, -, hkey⟩ := (hfirst k hk).row
  exact ⟨t, ht, hkey⟩

/-! ### Quests in two orders -/

namespace Game

/-- The quests with the second one first. -/
def turnedJson : Json :=
  .array [.object [("Id", .int 2), ("Prerequisites", .array [.string "1", .string "9"])],
    .object [("Id", .int 1)]]

/-- A bake of the quests with the second one first. -/
def turnedBaker : Baker catalog :=
  { questBaker with source := fun sheet => (rowsOfJson sheet turnedJson).map some }

theorem rawRows_turnedBaker : turnedBaker.rawRows "Quests" = questRaws.reverse := by rfl

theorem forall₂_turnedRows : List.Forall₂ (fun raw row => quest.record.read .pascal raw = .ok row ∧
    isValidKey (quest.key row) = true) (turnedBaker.rawRows "Quests") questRows.reverse := by
  rw [rawRows_turnedBaker, ← rawRows_questBaker]
  exact List.rel_reverse forall₂_questRows

theorem nodup_turnedRows : (questRows.reverse.map quest.key).Nodup := by
  rw [List.map_reverse, List.nodup_reverse]
  exact nodup_questRows

theorem keys_ingested_turned : (turnedBaker.ingested questSheet).keys = ["2", "1"] := by
  have hkeys := @Baker.keys_ingested catalog turnedBaker questSheet questRows.reverse
    forall₂_turnedRows nodup_turnedRows
  refine hkeys.trans ?_
  change questRows.reverse.map quest.key = _
  rw [List.map_reverse, keys_questRows]
  rfl

theorem bakeable_turnedBaker : turnedBaker.Bakeable :=
  { bakeable_questBaker with
    source := List.forall_mem_singleton.mpr ⟨_, rfl⟩
    rows_le := List.forall_mem_singleton.mpr (by
      rw [AnyTable.size, ← Table.length_keys]
      exact (congrArg List.length keys_ingested_turned).trans_le (by decide)) }

/-- Linked alike, the quests have the same bytes in both orders. -/
theorem encode_linked_subset (l : Linker) :
    ((questBaker.ingested questSheet).linked l).table.encode ⊆
      ((turnedBaker.ingested questSheet).linked l).table.encode := by
  have hrows := Baker.rows_linked (b := questBaker) (d := questSheet) lawful_quest
    plainRows_quest forall₂_questRows nodup_questRows l
  have hturned := Baker.rows_linked (b := turnedBaker) (d := questSheet) lawful_quest
    plainRows_quest forall₂_turnedRows nodup_turnedRows l
  rw [Table.encode, Table.encode, hrows, hturned]
  exact (((List.reverse_perm _).symm.map _).map _).subset

/-- In the container of the second order the first quest stands second. -/
theorem exists_place_of_turned {A : String → Except BakeError (List String) → Prop}
    {s : BakeState catalog} (hs : s.Holds A turnedBaker turnedBaker.bakedSheets) :
    ∃ k, (s.container.linker turnedBaker.assets).row "Quest" "1" = some k ∧
      k.sheet.toNat = 0 ∧ k.row.toNat = 1 := by
  have htables : s.container.tables.toList = [turnedBaker.ingested questSheet] := hs.tables_eq
  have hfound : ((s.container.linker turnedBaker.assets).row "Quest" "1").isSome := by
    refine (RowIndex.isSome_lookup? hs.indexed).mpr ⟨_, htables ▸ List.mem_cons_self, rfl, ?_⟩
    rw [keys_ingested_turned]
    exact List.mem_cons_of_mem _ List.mem_cons_self
  obtain ⟨k, hk⟩ := Option.isSome_iff_exists.mp hfound
  obtain ⟨t, ht, -, hrow⟩ := (RowIndex.firstRow_of_lookup? hs.indexed hk).row
  rw [← Array.getElem?_toList, htables, List.getElem?_singleton] at ht
  split at ht
  · next hsheet =>
    obtain rfl := Option.some.inj ht
    rw [keys_ingested_turned] at hrow
    refine ⟨k, hk, hsheet, ?_⟩
    -- of the keys "2" and "1" the second one is that of the row
    rcases hplace : k.row.toNat with _ | _ | n
    · simp [hplace] at hrow
    · rfl
    · simp [hplace] at hrow
  · cases ht

/-- The first quests, linked in the container of the second order, are loaded from the manifest of
the first bake and the rows of the second one. -/
theorem run_loadSheets_mixed {A : String → Except BakeError (List String) → Prop}
    {s : BakeState catalog} (hs : s.Holds A turnedBaker turnedBaker.bakedSheets)
    {store store' : ArtifactStore}
    (hsaved : Saved (turnedBaker.plan (turnedBaker.link s).container s.baked) store store')
    (naming : Naming) {t : AnyTable catalog}
    (ht : t = (questBaker.ingested questSheet).linked (s.container.linker turnedBaker.assets)) :
    ∃ container, (questBaker.schema.loadSheets (.empty catalog naming) [t.artifact "Quests"]).run
      store' = (.ok container, store') ∧ container.tables.toList = [t] := by
  have hkeys : turnedBaker.KeepsKeys :=
    Baker.keepsKeys_of_resolutionBlind resolutionBlind_questSheets
  have hindexed : t.table.Indexed :=
    ht ▸ (questBaker.indexed_ingested questSheet).mapReferences _ resolutionBlind_quest
  have hempty := Container.indexed_empty catalog naming
  have hinsert : (Container.empty catalog naming).insert t =
      .ok (.push (.empty catalog naming) t) := by
    refine hempty.insert_eq_ok_iff.mpr
      ⟨⟨List.not_mem_nil, (by decide : 0 < maxSheets), ?_⟩, rfl⟩
    rw [ht, AnyTable.size_linked, size_ingested_questSheet]
    decide
  -- the rows of the later bake are under the same keys, so the listed ones are all found
  have hrows : store'.rows "Quests" t.keys = .ok t.table.encode := by
    have hall := Baker.rows_of_saved hs hkeys hsaved
    rw [hs.tables_link] at hall
    have hfirst := (List.forall₂_cons.mp hall).1 t.table.encode (ht ▸ encode_linked_subset _)
    rwa [Table.map_fst_encode] at hfirst
  have hdeclares : questBaker.schema.Declares t := by
    refine ht ▸ ⟨questSheet, ?_, rfl⟩
    rw [AnyTable.name_linked, Baker.name_ingested]
    rfl
  -- and they decode to rows whose keys are the listed ones
  have hrestore : Table.restore (catalog.type t.id) t.name t.table.encode = .ok t.table := by
    refine hindexed.restore_encode fun row hrow => ?_
    subst ht
    exact RecordType.decode_encode static_quest
      (Baker.canonical_linked (b := questBaker) (d := questSheet) lawful_quest.keys _ row hrow)
      (fits_linked_quests _ row hrow)
  exact ⟨_, ContainerSchema.run_loadSheets hempty (hempty.insert hindexed hinsert) rfl rfl
    (.cons hrows .nil) (List.forall_mem_singleton.mpr ⟨hdeclares, hrestore⟩), rfl⟩

/-- The first bake commits, the manifest is read, the bake in the other order commits, and then the
rows are read. -/
theorem exists_mixed_load : ∃ turns out₁ out₂ store₁ store₂ l k container,
    questBaker.bake.run .empty = (.ok out₁, store₁) ∧
      turnedBaker.bake.run store₁ = (.ok out₂, store₂) ∧
      (SharedLoad.start [questBaker, turnedBaker] questBaker.schema .empty).run turns =
        ⟨⟨store₂, [.done (.ok out₁), .done (.ok out₂)], some 1⟩, .done (.ok container)⟩ ∧
      container.tables.toList = [(questBaker.ingested questSheet).linked l] ∧
      l.row "Quest" "1" = some k ∧ k.sheet.toNat = 0 ∧ k.row.toNat = 1 := by
  obtain ⟨out₁, store₁, h₁⟩ := exists_run_questBaker
  obtain ⟨s₁, hs₁, rfl, -, hsaved₁⟩ := Baker.saved_of_run h₁
  obtain ⟨es, -, htable₁⟩ := hsaved₁.manifest
  obtain ⟨out₂, store₂, h₂⟩ :=
    bakeable_turnedBaker.exists_run rfl hsaved₁.opensRows ⟨_, entries_of_table? htable₁⟩
  obtain ⟨s₂, hs₂, rfl, -, hsaved₂⟩ := Baker.saved_of_run h₂
  obtain ⟨k, hk, hsheet, hrow⟩ := exists_place_of_turned hs₂
  let l := s₂.container.linker turnedBaker.assets
  let t := (questBaker.ingested questSheet).linked l
  let m := questBaker.manifestOf (questBaker.link s₁).container
  have hmanifest : store₁.manifest = .ok (some m) :=
    Baker.manifest_of_saved hs₁ hsaved₁ (fits_of_run h₁).manifest
  have hartifact := AnyTable.artifact_linked (t := questBaker.ingested questSheet)
    resolutionBlind_quest
  -- an artifact tells names and keys only, so the references of the other bake do not show in it
  have hsheets : m.sheets = [t.artifact "Quests"] := by
    change List.zipWith AnyTable.artifact (questBaker.link s₁).container.tables.toList _ = _
    rw [hs₁.tables_link, bakedSheets_questBaker]
    exact congrArg (· :: []) ((hartifact _ "Quests").trans (hartifact l "Quests").symm)
  obtain ⟨container, hload, htables⟩ := run_loadSheets_mixed hs₂ hsaved₂ m.naming rfl
  have hread : (questBaker.schema.load.step store₁).1 =
      questBaker.schema.loadSheets (.empty catalog m.naming) [t.artifact "Quests"] := by
    rw [ContainerSchema.load, StoreProcess.step, hmanifest]
    simp only [hsheets]
  obtain ⟨turns, hrun⟩ :=
    SharedLoad.exists_run_around questBaker.schema h₁ h₂ (by rw [hread, hload])
  exact ⟨turns, _, _, store₁, store₂, l, k, container, h₁, h₂, hrun, htables, hk, hsheet, hrow⟩

end Game

/-- The quests are baked, and loaded when the bake is done: what is loaded is its container. -/
theorem SharedLoad.load_of_reads_quests : ∃ turns container out,
    let σ := (start [Game.questBaker] Game.questBaker.schema .empty).run turns
    σ.loader = .done (.ok container) ∧ σ.shared.bakes = [.done (.ok out)] ∧
      Game.questBaker.schema.PutTogether (Committed [Game.questBaker] .empty) container ∧
      container = out.container := by
  obtain ⟨out, store, h⟩ := Game.exists_run_questBaker
  have htypes : ∀ d ∈ Game.questBaker.schema.sheets,
      (Game.catalog.type d.id).record.members.Static ∧ (Game.catalog.type d.id).ResolutionBlind :=
    List.forall_mem_singleton.mpr ⟨Game.static_quest, Game.resolutionBlind_quest⟩
  have hdeclares := Baker.declares_of_run h
  have hload := (Baker.hasSaved_of_run h).run_load Game.static_questSheets
    Game.keepsKeys_questBaker (Game.fits_of_run h) hdeclares
  -- the bake takes all its turns, and then the process that loads takes all of its own
  obtain ⟨i, hi⟩ := SharedBakes.run_replicate (Game.questBaker.savesLast_bake fun _ _ => True)
    (σ := SharedBakes.start [Game.questBaker] .empty) (i := 0) rfl h
  obtain ⟨n, hn⟩ := exists_run_loader Game.questBaker.schema.readsOnly_load
    ⟨store, [.done (.ok out)], some 0⟩
  rw [hload] at hn
  have hbefore : (start [Game.questBaker] Game.questBaker.schema .empty).run
      ((List.replicate i 0).map .baker) =
        ⟨⟨store, [.done (.ok out)], some 0⟩, Game.questBaker.schema.load⟩ := by
    rw [run_bakers]
    simp only [start]
    rw [hi]
    rfl
  have hrun := (run_append (start [Game.questBaker] Game.questBaker.schema .empty)
    ((List.replicate i 0).map .baker) (List.replicate n .loader)).trans (hbefore ▸ hn)
  obtain ⟨hput, hone⟩ := load_of_reads [Game.questBaker] .empty Game.questBaker.schema _
    (congrArg SharedLoad.loader hrun)
  obtain ⟨b, out', hb, hdone, heq⟩ := hone _ _ rfl (by simp)
    (hbefore ▸ undisturbed_replicate Game.questBaker.schema.readsOnly_load n) 0 (by rw [hbefore])
  obtain rfl : Game.questBaker = b := Option.some.inj hb
  rw [hbefore] at hdone
  obtain rfl : out = out' := by
    have hsame := Option.some.inj hdone
    cases hsame
    rfl
  exact ⟨_, out.container, out, congrArg SharedLoad.loader hrun,
    congrArg (fun σ => σ.shared.bakes) hrun, hput, heq htypes (Game.fits_of_run h) hdeclares⟩

/-- Two bakes of the quests commit, the second one while the container is loaded. What is loaded is
of neither: it has the rows in the order of the first bake, and a reference in them is resolved to
the row that has another key, since it was resolved in the order of the second one. -/
theorem SharedLoad.load_mixes_bakes : ∃ (turns : List Turn) (container : Container Game.catalog),
    let σ := (start [Game.questBaker, Game.turnedBaker] Game.questBaker.schema .empty).run turns
    σ.loader = .done (.ok container) ∧
      (∀ p ∈ σ.shared.bakes, ∃ out, p = .done (.ok out) ∧ container ≠ out.container) ∧
      ¬ ∀ t ∈ container.tables.toList, ∀ row ∈ t.table.rows.toList,
        (Game.catalog.type t.id).record.members.EveryRef container.Addresses (fun _ => True)
          row := by
  obtain ⟨turns, out₁, out₂, store₁, store₂, l, k, container, h₁, h₂, hrun, htables, hk, hsheet,
    hrow⟩ := Game.exists_mixed_load
  have hmixed : ¬ ∀ t ∈ container.tables.toList, ∀ row ∈ t.table.rows.toList,
      (Game.catalog.type t.id).record.members.EveryRef container.Addresses (fun _ => True) row := by
    rw [htables]
    intro h
    -- the reference to the first quest leads to the second row, which is the other quest
    have href := Game.ref_of_linked_quests (h _ (List.mem_singleton.mpr rfl))
    rw [hk] at href
    obtain ⟨t, ht, hkey⟩ := href k rfl
    rw [hsheet, ← Array.getElem?_toList, htables] at ht
    obtain rfl := Option.some.inj ht
    have hkeys := AnyTable.keys_linked (l := l) (t := Game.questBaker.ingested Game.questSheet)
      Game.resolutionBlind_quest
    rw [hkeys, Game.keys_ingested_questSheet, hrow] at hkey
    exact absurd (Option.some.inj hkey) (by decide : "2" ≠ "1")
  have hplain : ∀ d ∈ [Game.questSheet], (Game.catalog.type d.id).ResolutionBlind :=
    List.forall_mem_singleton.mpr Game.resolutionBlind_quest
  have hfirst := Baker.addresses_of_run (b := Game.questBaker)
    (SheetSource.fromJson_rowsOfJson Game.questJson).unresolved hplain h₁
  have hsecond := Baker.addresses_of_run (b := Game.turnedBaker)
    (SheetSource.fromJson_rowsOfJson Game.turnedJson).unresolved hplain h₂
  refine ⟨turns, container, by rw [hrun], ?_, hmixed⟩
  rw [hrun]
  refine List.forall_mem_cons.mpr ⟨⟨out₁, rfl, ?_⟩, List.forall_mem_singleton.mpr ⟨out₂, rfl, ?_⟩⟩
  · rintro rfl
    exact hmixed hfirst
  · rintro rfl
    exact hmixed hsecond

end TypedSheets
