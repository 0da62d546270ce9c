import Mathlib.Data.List.Induction
import TypedSheets.Proofs.Bake.Shared

/-!
# Rows that no sheet lists

A bake removes the rows of the keys that it was told of and that its sheets have no longer. It is
told of them before it saves, in transactions of their own, and another bake may save in between.
What that one adds is not removed then, and stays in the store as rows that the manifest does not
list.

## Main definitions

* `SharedBakes.Commits` — the next transaction of a bake is its save
* `SharedBakes.Told` — what a bake was told of the keys of a file
* `SharedBakes.Adds` — the next transaction is a save that lists a key for a file

## Main results

* `Baker.rowKeys_of_saved` — the keys of a sheet after a save
* `SharedBakes.Answered.step`, `SharedBakes.answered_run` — a bake works with what it was told
* `SharedBakes.exists_adds_of_mem` — a key that is new in a store was listed by a save
* `SharedBakes.rows_of_commit` — the rows in a store after a save
* `SharedBakes.commit_leaves_orphan` — a save that leaves a row that it does not list
-/

namespace TypedSheets

open ArtifactStore

variable {c : Catalog}

/-! ### Keys of rows -/

theorem Entries.isSome_get?_iff {α β : Type} {cmp : α → α → Ordering} [Std.TransCmp cmp]
    [Std.LawfulEqCmp cmp] {es : Entries α β} (h : Increasing cmp (es.map Prod.fst)) {k : α} :
    (Entries.get? cmp k es).isSome ↔ k ∈ es.map Prod.fst := by
  rw [Option.isSome_iff_exists, List.mem_map]
  constructor
  · rintro ⟨v, hv⟩
    exact ⟨(k, v), (Entries.mem_iff_get? h).mpr hv, rfl⟩
  · rintro ⟨⟨k, v⟩, hmem, rfl⟩
    exact ⟨v, (Entries.mem_iff_get? h).mp hmem⟩

namespace ArtifactStore

variable {s : ArtifactStore} {file : String} {keys : List String}

/-- After rows are removed and others written, the keys are those that are written, and those of
before that are not removed. -/
theorem mem_keys_updated {es : KeptRows} {removed : List String}
    {rows : List (String × List UInt8)} (hes : Increasing compareText (es.map Prod.fst))
    (hrows : (rows.map Prod.fst).Nodup) {key : String} :
    key ∈ (updated es removed rows).map Prod.fst ↔
      key ∈ rows.map Prod.fst ∨ (key ∈ es.map Prod.fst ∧ key ∉ removed) := by
  rw [← Entries.isSome_get?_iff (increasing_updated hes), ← Entries.isSome_get?_iff hes]
  by_cases hkey : key ∈ rows.map Prod.fst
  · obtain ⟨⟨key, bytes⟩, hmem, rfl⟩ := List.mem_map.mp hkey
    simp [get?_updated hrows hmem, hkey]
  · rw [updated, Entries.get?_foldl_insert_of_notMem hkey, Entries.get?_foldl_erase]
    by_cases hremoved : key ∈ removed <;> simp [hkey, hremoved]

/-- A transaction leaves a store as it was, or saves. -/
theorem Sorted.step {α : Type} (hs : s.Sorted) (p : StoreProcess α) : (p.step s).2.Sorted := by
  cases p with
  | save plan next =>
    rw [StoreProcess.step]
    split
    · next hsave => exact hs.save hsave
    · exact hs
  | _ => exact hs

end ArtifactStore

namespace Baker

variable {A : String → Except BakeError (List String) → Prop} {b : Baker c} {s : BakeState c}
  {store store' : ArtifactStore} {sheet : SheetArtifact}

/-- After a save a sheet has the rows that the manifest lists, and those that were there before and
that the bake was not told of. -/
theorem rowKeys_of_saved (hs : s.Holds A b b.bakedSheets)
    (hids : ∀ d ∈ b.schema.sheets, (c.type d.id).ResolutionBlind)
    (hA : ∀ file told, A file (.ok told) → told.Nodup) (hstore : store.Sorted)
    (hsaved : Saved (b.plan (b.link s).container s.baked) store store')
    (hsheet : sheet ∈ (b.manifestOf (b.link s).container).sheets) :
    ∃ kept told keys, store.rowKeys sheet.fileName = .ok kept ∧ A sheet.fileName (.ok told) ∧
      store'.rowKeys sheet.fileName = .ok keys ∧
        ∀ key, key ∈ keys ↔ key ∈ sheet.keys ∨ (key ∈ kept ∧ key ∉ told) := by
  rw [← manifest_plan hs] at hsheet
  obtain ⟨p, hp, rfl⟩ := List.mem_map.mp hsheet
  obtain ⟨d, hd, hof⟩ := exists_of_mem_forall₂ hs.plan_sheets hp
  obtain ⟨es, hes, htable⟩ := hsaved.sheet p hp
  obtain ⟨told, htold, hremoved⟩ := hof.removed
  -- the rows of the plan have the keys that the sheet was read with
  have hkeys : p.rows.map Prod.fst = (b.ingested d.1).keys := by
    rw [hof.rows_eq, Table.map_fst_encode]
    exact AnyTable.keys_linked (hids _ (mem_of_mem_sheetFiles hd))
  have hnodup : (p.rows.map Prod.fst).Nodup := hkeys ▸ (b.indexed_ingested d.1).nodup
  have hfile : p.artifact.fileName = d.2 := hof.fileName_eq
  refine ⟨_, told, _, rowKeys_eq_ok_iff.mpr ⟨es, hes, rfl⟩, hfile.symm ▸ htold,
    rowKeys_eq_ok_iff.mpr ⟨_, entries_of_table? htable, rfl⟩, fun key => ?_⟩
  -- what is kept is what was kept, less what was told and is gone, and with the rows
  rw [mem_keys_updated (hstore.entries hes) hnodup, hremoved,
    mem_removed_diffKeys (hA _ _ htold), ← hkeys, SheetPlan.artifact]
  tauto

/-- After a save there are no rows of sheets that the manifest does not list. -/
theorem table?_of_saved_none (hs : s.Holds A b b.bakedSheets)
    (hsaved : Saved (b.plan (b.link s).container s.baked) store store') {name : String}
    (hname : isRowsTable name = true)
    (hother : ∀ sheet ∈ (b.manifestOf (b.link s).container).sheets,
      name ≠ rowsTable sheet.fileName) : store'.table? name = none := by
  rw [← manifest_plan hs] at hother
  exact hsaved.dropped name hname fun p hp => hother _ (List.mem_map_of_mem hp)

end Baker

/-! ### What bakes are told -/

namespace SharedBakes

/-- The next transaction of a bake is its save, and the bake is done then with this result. -/
def Commits (σ : SharedBakes c) (i : Nat) (out : BakeOutput c) : Prop :=
  ∃ p, σ.bakes[i]? = some p ∧ p.commits σ.store = true ∧ (p.step σ.store).1 = .done (.ok out)

/-- What a bake was told of the keys of a file: what the store answers at one of its turns. -/
def Told (σ : SharedBakes c) (schedule : List Nat) (i : Nat) (file : String)
    (answer : Except BakeError (List String)) : Prop :=
  ∃ first rest, schedule = first ++ i :: rest ∧ answer = (σ.run first).store.rowKeys file

/-- Each bake is under way or done, and was answered as `A` allows. -/
def Answered (A : Nat → String → Except BakeError (List String) → Prop) (bakers : List (Baker c))
    (σ : SharedBakes c) : Prop :=
  ∀ (i : Nat) p, σ.bakes[i]? = some p → ∃ b : Baker c, bakers[i]? = some b ∧
    (StoreProcess.SavesLast (A i) (fun plan out => ∃ s : BakeState c,
      s.Holds (A i) b b.bakedSheets ∧ out = b.link s ∧ plan = b.plan out.container s.baked) p ∨
      ∃ out, p = .done (.ok out))

variable {A : Nat → String → Except BakeError (List String) → Prop} {bakers : List (Baker c)}
  {σ : SharedBakes c} {store : ArtifactStore} {i : Nat} {out : BakeOutput c}

theorem run_append (σ : SharedBakes c) (first rest : List Nat) :
    σ.run (first ++ rest) = (σ.run first).run rest := List.foldl_append

theorem run_concat (σ : SharedBakes c) (schedule : List Nat) (i : Nat) :
    σ.run (schedule ++ [i]) = (σ.run schedule).step i := run_append σ schedule [i]

theorem answered_start (A : Nat → String → Except BakeError (List String) → Prop)
    (bakers : List (Baker c)) (store : ArtifactStore) : (start bakers store).Answered A bakers := by
  intro i p hp
  rw [start, List.getElem?_map] at hp
  obtain ⟨b, hb, rfl⟩ := Option.map_eq_some_iff.mp hp
  exact ⟨b, hb, Or.inl (b.savesLast_bake (A i))⟩

/-- The next transaction of a bake answers it as the store does. -/
theorem Answered.step (h : σ.Answered A bakers) (hA : ∀ file, A i file (σ.store.rowKeys file)) :
    (σ.step i).Answered A bakers := by
  rw [SharedBakes.step]
  split
  · exact h
  · next p hp =>
    obtain ⟨b, hb, hbake⟩ := h i p hp
    intro j q hq
    -- one bake takes a turn, and the others wait
    by_cases hij : i = j
    · subst hij
      rw [List.getElem?_set_self (List.getElem?_eq_some_iff.mp hp).1] at hq
      obtain rfl := Option.some.inj hq
      refine ⟨b, hb, ?_⟩
      rcases hbake with hsaves | ⟨out, rfl⟩
      · rcases hsaves.step_eq hA with ⟨hnext, -⟩ | ⟨plan, out, store, -, -, hstep, -⟩
        · exact Or.inl hnext
        · exact Or.inr ⟨out, by rw [hstep]⟩
      · exact Or.inr ⟨out, rfl⟩
    · rw [List.getElem?_set_ne hij] at hq
      exact h j q hq

/-- At all times the bakes have been told what the store answered at their turns. -/
theorem answered_run (bakers : List (Baker c)) (store : ArtifactStore) {schedule : List Nat}
    (first rest : List Nat) (h : schedule = first ++ rest) :
    ((start bakers store).run first).Answered ((start bakers store).Told schedule) bakers := by
  induction first using List.reverseRecOn generalizing rest with
  | nil => exact answered_start _ bakers store
  | append_singleton first i ih =>
    rw [List.append_assoc, List.singleton_append] at h
    rw [run_concat]
    exact (ih (i :: rest) h).step fun file => ⟨first, rest, h, rfl⟩

theorem sorted_step (hσ : σ.store.Sorted) (i : Nat) : (σ.step i).store.Sorted := by
  rw [step]
  split
  · exact hσ
  · exact hσ.step _

theorem sorted_run (hσ : σ.store.Sorted) (schedule : List Nat) :
    (σ.run schedule).store.Sorted := by
  induction schedule generalizing σ with
  | nil => exact hσ
  | cons i rest ih => exact ih (sorted_step hσ i)

theorem nodup_of_told (hσ : σ.store.Sorted) {schedule : List Nat} (file : String)
    (told : List String) (h : σ.Told schedule i file (.ok told)) : told.Nodup := by
  obtain ⟨first, rest, -, htold⟩ := h
  exact (sorted_run hσ first).nodup_rowKeys htold.symm

/-! ### Commits -/

/-- A bake that commits saves the plan of a state that has baked all sheets. -/
theorem Answered.exists_saved (h : σ.Answered A bakers) (hcommit : σ.Commits i out) :
    ∃ (b : Baker c) (s : BakeState c), bakers[i]? = some b ∧ s.Holds (A i) b b.bakedSheets ∧
      out = b.link s ∧ Saved (b.plan out.container s.baked) σ.store (σ.step i).store := by
  obtain ⟨p, hp, hcommits, hstep⟩ := hcommit
  obtain ⟨b, hb, hsaves | ⟨out, rfl⟩⟩ := h i p hp
  · have hstore : (σ.step i).store = (p.step σ.store).2 := by rw [SharedBakes.step, hp]
    -- only a save commits, and only if it succeeds
    cases hsaves with
    | failed e => cases hcommits
    | rowKeys _ => cases hcommits
    | @save plan out' hends =>
      cases hsave : σ.store.save plan with
      | error e =>
        rw [StoreProcess.commits, hsave] at hcommits
        cases hcommits
      | ok store' =>
        obtain ⟨s, hs, rfl, rfl⟩ := hends
        simp only [StoreProcess.step, hsave] at hstep hstore
        cases hstep
        rw [hstore]
        exact ⟨b, s, hb, hs, rfl, saved_of_save (hs.map_fileName_plan ▸ hs.files_nodup) hsave⟩
  · cases hcommits

/-- Any other transaction leaves the store as it is. -/
theorem Answered.step_store (h : σ.Answered A bakers) (hcommit : ∀ out, ¬ σ.Commits i out) :
    (σ.step i).store = σ.store := by
  rw [SharedBakes.step]
  split
  · rfl
  · next p hp =>
    obtain ⟨b, -, hsaves | ⟨out, rfl⟩⟩ := h i p hp
    -- only a save writes, and if it succeeds the bake commits
    · cases hsaves with
      | failed e => rfl
      | rowKeys _ => rfl
      | @save plan out _ =>
        rw [StoreProcess.step]
        split
        · next store' hsave =>
          refine absurd ⟨_, hp, ?_, ?_⟩ (hcommit out)
          · simp [StoreProcess.commits, hsave, Except.isOk, Except.toBool]
          · simp [StoreProcess.step, hsave, Except.map]
        · rfl
    · rfl

/-- The next transaction of a bake is its save, and the manifest that it saves lists the key for the
file. -/
def Adds (bakers : List (Baker c)) (σ : SharedBakes c) (i : Nat) (file key : String) : Prop :=
  ∃ (b : Baker c) (out : BakeOutput c), bakers[i]? = some b ∧ σ.Commits i out ∧
    ∃ sheet ∈ (b.manifestOf out.container).sheets, sheet.fileName = file ∧ key ∈ sheet.keys

section Keys

variable (hids : ∀ b ∈ bakers, ∀ d ∈ b.schema.sheets, (c.type d.id).ResolutionBlind)

include hids

/-- A key that is there after a transaction was there before, or this is a save that lists it. -/
theorem Answered.adds_of_mem (h : σ.Answered A bakers) (hσ : σ.store.Sorted)
    (hA : ∀ file told, A i file (.ok told) → told.Nodup) {file key : String} {keys : List String}
    (hkeys : (σ.step i).store.rowKeys file = .ok keys) (hkey : key ∈ keys) :
    (∃ kept, σ.store.rowKeys file = .ok kept ∧ key ∈ kept) ∨ Adds bakers σ i file key := by
  by_cases hcommit : ∃ out, σ.Commits i out
  · obtain ⟨out, hcommit⟩ := hcommit
    obtain ⟨b, s, hb, hs, rfl, hsaved⟩ := h.exists_saved hcommit
    by_cases hfile : ∃ sheet ∈ (b.manifestOf (b.link s).container).sheets, sheet.fileName = file
    · obtain ⟨sheet, hsheet, rfl⟩ := hfile
      obtain ⟨kept, told, keys', hkept, -, hkeys', hmem⟩ := Baker.rowKeys_of_saved hs
        (hids b (List.mem_of_getElem? hb)) hA hσ hsaved hsheet
      obtain rfl := Except.ok.inj (hkeys.symm.trans hkeys')
      rcases (hmem key).mp hkey with hlisted | ⟨hbefore, -⟩
      · exact Or.inr ⟨b, _, hb, hcommit, sheet, hsheet, rfl, hlisted⟩
      · exact Or.inl ⟨kept, hkept, hbefore⟩
    · -- the rows of other files are dropped
      have hnone := Baker.table?_of_saved_none hs hsaved (isRowsTable_rowsTable file)
        fun sheet hsheet heq => hfile ⟨sheet, hsheet, (rowsTable_injective heq).symm⟩
      obtain ⟨es, hes, rfl⟩ := rowKeys_eq_ok_iff.mp hkeys
      rw [entries_of_table?_none hnone] at hes
      cases hes
      exact absurd hkey List.not_mem_nil
  · rw [h.step_store fun out hout => hcommit ⟨out, hout⟩] at hkeys
    exact Or.inl ⟨keys, hkeys, hkey⟩

/-- A key that was not there at first was listed by a bake that has saved since. -/
theorem exists_adds_of_mem (hstore : store.Sorted) (first rest : List Nat) {file key : String}
    {keys : List String}
    (hkeys : ((start bakers store).run (first ++ rest)).store.rowKeys file = .ok keys)
    (hkey : key ∈ keys) :
    (∃ kept, ((start bakers store).run first).store.rowKeys file = .ok kept ∧ key ∈ kept) ∨
      ∃ during j later, rest = during ++ j :: later ∧
        Adds bakers ((start bakers store).run (first ++ during)) j file key := by
  induction rest using List.reverseRecOn generalizing keys with
  | nil =>
    rw [List.append_nil] at hkeys
    exact Or.inl ⟨keys, hkeys, hkey⟩
  | append_singleton rest j ih =>
    rw [← List.append_assoc, run_concat] at hkeys
    have hanswered := answered_run bakers store (first ++ rest) [] (List.append_nil _).symm
    rcases hanswered.adds_of_mem hids (sorted_run hstore _) (nodup_of_told hstore) hkeys hkey with
      ⟨kept, hkept, hmem⟩ | hadds
    · -- it was there before the last transaction
      rcases ih hkept hmem with hfirst | ⟨during, j', later, rfl, hadds⟩
      · exact Or.inl hfirst
      · exact Or.inr ⟨during, j', later ++ [j], by simp, hadds⟩
    · exact Or.inr ⟨rest, j, [], rfl, hadds⟩

end Keys

/-! ### A bake commits once -/

theorem step_of_getElem? {p : StoreProcess (Except BakeError (BakeOutput c))}
    (hp : σ.bakes[i]? = some p) : (σ.step i).bakes = σ.bakes.set i (p.step σ.store).1 ∧
      (σ.step i).store = (p.step σ.store).2 := by
  rw [SharedBakes.step, hp]
  exact ⟨rfl, rfl⟩

/-- A bake that has committed is done. -/
theorem Commits.done (h : σ.Commits i out) :
    (σ.step i).bakes[i]? = some (.done (.ok out)) := by
  obtain ⟨p, hp, -, hdone⟩ := h
  rw [(step_of_getElem? hp).1, hdone, List.getElem?_set_self (List.getElem?_eq_some_iff.mp hp).1]

/-- A bake that is done stays so. -/
theorem done_run {result : Except BakeError (BakeOutput c)} (schedule : List Nat)
    (h : σ.bakes[i]? = some (.done result)) :
    (σ.run schedule).bakes[i]? = some (.done result) := by
  -- on the turns: a bake that is done takes its turns without a change
  induction schedule generalizing σ with
  | nil => exact h
  | cons j rest ih =>
    refine ih ?_
    cases hp : σ.bakes[j]? with
    | none =>
      rw [SharedBakes.step, hp]
      exact h
    | some p =>
      rw [(step_of_getElem? hp).1]
      by_cases hij : j = i
      · subst hij
        obtain rfl := Option.some.inj (hp.symm.trans h)
        exact List.getElem?_set_self (List.getElem?_eq_some_iff.mp hp).1
      · rwa [List.getElem?_set_ne hij]

/-- No bake commits twice. -/
theorem Commits.not_commits (h : σ.Commits i out) (rest : List Nat) {out' : BakeOutput c} :
    ¬ (σ.run (i :: rest)).Commits i out' := by
  rintro ⟨p, hp, hcommits, -⟩
  obtain rfl := Option.some.inj (hp.symm.trans (done_run rest h.done))
  cases hcommits

/-! ### Rows after a commit -/

/-- What is in a store after a bake has committed, whatever bakes share it and in whatever order
their transactions come. The manifest is that of the bake, and only the sheets that it lists have
rows. A sheet has the rows that the manifest lists for it and besides, as rows that it does not
list, those that were there when the bake committed but not when it was told of the kept keys. Each
of them was listed by another bake that has committed in the meantime; so if none has, there are no
such rows. -/
theorem rows_of_commit {bakers : List (Baker c)} {store : ArtifactStore}
    (hids : ∀ b ∈ bakers, ∀ d ∈ b.schema.sheets, (c.type d.id).ResolutionBlind)
    (hstore : store.Sorted) (schedule : List Nat) {i : Nat} {out : BakeOutput c}
    (hcommit : ((start bakers store).run schedule).Commits i out) :
    let before := ((start bakers store).run schedule).store
    let after := ((start bakers store).run (schedule ++ [i])).store
    ∃ b : Baker c, bakers[i]? = some b ∧
      ((b.manifestOf out.container).Fits →
        after.manifest = .ok (some (b.manifestOf out.container))) ∧
      (∀ name, isRowsTable name = true →
        (∀ sheet ∈ (b.manifestOf out.container).sheets, name ≠ rowsTable sheet.fileName) →
          after.table? name = none) ∧
      ∀ sheet ∈ (b.manifestOf out.container).sheets, ∃ first rest told kept keys,
        schedule = first ++ i :: rest ∧
        ((start bakers store).run first).store.rowKeys sheet.fileName = .ok told ∧
        before.rowKeys sheet.fileName = .ok kept ∧
        after.rowKeys sheet.fileName = .ok keys ∧ keys.Nodup ∧
        (∀ key, key ∈ keys ↔ key ∈ sheet.keys ∨ (key ∈ kept ∧ key ∉ told)) ∧
        (∀ key ∈ keys, key ∉ sheet.keys → ∃ during j later, rest = during ++ j :: later ∧ j ≠ i ∧
          Adds bakers ((start bakers store).run (first ++ i :: during)) j sheet.fileName key) ∧
        ((∀ during j later, rest = during ++ j :: later →
            ∀ other, ¬ ((start bakers store).run (first ++ i :: during)).Commits j other) →
          ∀ key, key ∈ keys ↔ key ∈ sheet.keys) := by
  intro before after
  have hanswered := answered_run bakers store schedule [] (List.append_nil _).symm
  obtain ⟨b, s, hb, hs, rfl, hsaved⟩ := hanswered.exists_saved hcommit
  rw [← run_concat] at hsaved
  refine ⟨b, hb, Baker.manifest_of_saved hs hsaved,
    fun name => Baker.table?_of_saved_none hs hsaved, fun sheet hsheet => ?_⟩
  obtain ⟨kept, told, keys, hkept, ⟨first, rest, hschedule, htold⟩, hkeys, hmem⟩ :=
    Baker.rowKeys_of_saved hs (hids b (List.mem_of_getElem? hb)) (nodup_of_told hstore)
      (sorted_run hstore schedule) hsaved hsheet
  -- a row that is not listed came in between, by the save of another bake
  have horphan : ∀ key ∈ keys, key ∉ sheet.keys → ∃ during j later,
      rest = during ++ j :: later ∧ j ≠ i ∧
        Adds bakers ((start bakers store).run (first ++ i :: during)) j sheet.fileName key := by
    intro key hkey hnew
    obtain ⟨hbefore, hnot⟩ := ((hmem key).mp hkey).resolve_left hnew
    rw [hschedule] at hkept hcommit
    rcases exists_adds_of_mem hids hstore first (i :: rest) hkept hbefore with
      ⟨kept', hkept', hthere⟩ | ⟨during, j, later, hrest, hadds⟩
    · rw [← htold] at hkept'
      exact absurd (Except.ok.inj hkept' ▸ hthere) hnot
    · have hother : j ≠ i := by
        rintro rfl
        obtain ⟨-, out', -, hcommit', -⟩ := hadds
        rw [hrest, ← List.append_assoc, run_append] at hcommit
        exact hcommit'.not_commits later hcommit
      cases during with
      | nil => exact absurd (List.cons.inj hrest).1.symm hother
      | cons i' during =>
        obtain ⟨rfl, rfl⟩ := List.cons.inj hrest
        exact ⟨during, j, later, rfl, hother, hadds⟩
  refine ⟨first, rest, told, kept, keys, hschedule, htold.symm, hkept, hkeys,
    (sorted_run hstore _).nodup_rowKeys hkeys, hmem, horphan, fun hnone key => ⟨fun hkey => ?_,
      fun hkey => (hmem key).mpr (Or.inl hkey)⟩⟩
  by_contra hnew
  obtain ⟨during, j, later, hrest, -, -, out', -, hcommit', -⟩ := horphan key hkey hnew
  exact hnone during j later hrest out' hcommit'

end SharedBakes

/-! ### A bake of one sheet -/

namespace Baker

variable {b : Baker c} {d : SheetDecl c} {file : String} {told : List String}
  {store : ArtifactStore}

/-- A bake of one sheet is told of kept keys, and then only has to save. -/
theorem Bakeable.step_bake (h : b.Bakeable) (hnever : b.cancelled = .never)
    (hschema : b.schema.sheets = [d]) (hsheets : b.bakedSheets = [(d, file)])
    (hfile : b.fileFor b.start 0 d.name = .ok (some file)) (htold : store.rowKeys file = .ok told) :
    ∃ s : BakeState c, b.bake.step store = (b.finish s, store) ∧
      s.Holds (fun file answer => answer = store.rowKeys file) b b.bakedSheets := by
  have hstart := BakeState.holds_start (fun file answer => answer = store.rowKeys file) b
  obtain ⟨hnew, next, hadd⟩ := h.exists_addSheet hstart hsheets told
  refine ⟨next, ?_, hsheets ▸ addSheet_holds hstart htold.symm hnew hadd⟩
  rw [bake, hschema, addSheets, hnever, hfile]
  simp only [Cancellation.never, Bool.false_eq_true, if_false, StoreProcess.bind, StoreProcess.step,
    htold, hadd, addSheets]

/-- A bake that only has to save does so in a store that can be opened. -/
theorem commits_finish {A : String → Except BakeError (List String) → Prop} {s : BakeState c}
    {σ : SharedBakes c} {i : Nat} (hs : s.Holds A b b.bakedSheets) (hnever : b.cancelled = .never)
    (hi : σ.bakes[i]? = some (b.finish s)) (hopens : σ.store.OpensRows)
    (hmanifest : ∃ es, σ.store.entries manifestTable = .ok es) :
    σ.Commits i (b.link s) ∧
      Saved (b.plan (b.link s).container s.baked) σ.store (σ.step i).store := by
  obtain ⟨store', hsave⟩ := exists_save_plan hs hopens hmanifest
  have hfinish : b.finish s = .save (b.plan (b.link s).container s.baked)
      fun saved => .done (saved.map fun _ => b.link s) := by
    rw [finish_of_holds hs, hnever]
    rfl
  have hstep : (b.finish s).step σ.store = (.done (.ok (b.link s)), store') := by
    rw [hfinish]
    simp only [StoreProcess.step, hsave]
    rfl
  refine ⟨⟨_, hi, ?_, by rw [hstep]⟩, ?_⟩
  · rw [hfinish, StoreProcess.commits, hsave]
    rfl
  · rw [(SharedBakes.step_of_getElem? hi).2, hstep]
    exact saved_of_save (hs.map_fileName_plan ▸ hs.files_nodup) hsave

end Baker

/-! ### Quests -/

namespace Game

/-- The first quest alone. -/
def firstJson : Json := .array [.object [("Id", .int 1)]]

/-- A bake of the first quest alone. -/
def firstBaker : Baker catalog :=
  { questBaker with source := fun sheet => (rowsOfJson sheet firstJson).map some }

theorem rawRows_firstBaker : firstBaker.rawRows "Quests" = questRaws.take 1 := by rfl

theorem forall₂_firstRows : List.Forall₂ (fun raw row => quest.record.read .pascal raw = .ok row ∧
    isValidKey (quest.key row) = true) (firstBaker.rawRows "Quests") (questRows.take 1) := by
  rw [rawRows_firstBaker, ← rawRows_questBaker]
  exact List.forall₂_take 1 forall₂_questRows

theorem keys_ingested_firstBaker : (firstBaker.ingested questSheet).keys = ["1"] := by
  refine (@Baker.keys_ingested catalog firstBaker questSheet (questRows.take 1)
    forall₂_firstRows ?_).trans ?_
  · exact List.nodup_singleton _
  · change (questRows.take 1).map quest.key = ["1"]
    rw [List.map_take, keys_questRows]
    rfl

theorem bakeable_firstBaker : firstBaker.Bakeable :=
  { bakeable_questBaker with
    source := List.forall_mem_singleton.mpr ⟨_, rfl⟩
    rows_le := List.forall_mem_singleton.mpr (by
      rw [AnyTable.size, ← Table.length_keys]
      exact (congrArg List.length keys_ingested_firstBaker).trans_le (by decide)) }

theorem rowKeys_empty (file : String) : ArtifactStore.empty.rowKeys file = .ok [] := rfl

/-- The sheets in the manifest of a bake of quests. -/
theorem sheets_manifestOf {A : String → Except BakeError (List String) → Prop}
    {b : Baker catalog} {s : BakeState catalog} (hs : s.Holds A b b.bakedSheets)
    (hsheets : b.bakedSheets = [(questSheet, "Quests")]) :
    (b.manifestOf (b.link s).container).sheets =
      [⟨"Quests", "Quests", "Quest", (b.ingested questSheet).keys⟩] := by
  have hartifact := AnyTable.artifact_linked (t := b.ingested questSheet) resolutionBlind_quest
    (s.container.linker b.assets) "Quests"
  rw [Baker.manifestOf, hs.tables_link, hsheets]
  refine congrArg (· :: []) (hartifact.trans ?_)
  rw [AnyTable.artifact, b.name_ingested]
  rfl

/-- The manifest of a bake of the first quest alone can be read back. -/
theorem fits_manifest_firstBaker {A : String → Except BakeError (List String) → Prop}
    {s : BakeState catalog} (hs : s.Holds A firstBaker firstBaker.bakedSheets) :
    (firstBaker.manifestOf (firstBaker.link s).container).Fits := by
  have hsheets := sheets_manifestOf hs rfl
  have htime : Bytes.TextFits Timestamp.epoch.text := by decide
  have htexts : Bytes.TextFits "Quests" ∧ Bytes.TextFits "Quest" ∧ Bytes.TextFits "1" := by decide
  rw [keys_ingested_firstBaker] at hsheets
  refine ⟨htime, ?_, ?_⟩
  · rw [hsheets, ListFits, List.length_singleton]
    decide
  · rw [hsheets]
    refine List.forall_mem_singleton.mpr ⟨htexts.1, htexts.1, htexts.2.1, ?_,
      List.forall_mem_singleton.mpr htexts.2.2⟩
    rw [ListFits, List.length_singleton]
    decide

/-- A bake of the first quest alone and one of both, on an empty store. -/
def outdatedBakes : SharedBakes catalog := .start [firstBaker, questBaker] .empty

/-- Both bakes are told that nothing is kept. -/
theorem exists_run_outdated : ∃ s₁ s₂,
    s₁.Holds (fun file answer => answer = ArtifactStore.empty.rowKeys file) firstBaker
        firstBaker.bakedSheets ∧
      s₂.Holds (fun file answer => answer = ArtifactStore.empty.rowKeys file) questBaker
        questBaker.bakedSheets ∧
      (outdatedBakes.run [0, 1]).bakes = [firstBaker.finish s₁, questBaker.finish s₂] ∧
      (outdatedBakes.run [0, 1]).store = .empty := by
  obtain ⟨s₁, hstep₁, hs₁⟩ := bakeable_firstBaker.step_bake rfl rfl rfl rfl (rowKeys_empty "Quests")
  obtain ⟨s₂, hstep₂, hs₂⟩ := bakeable_questBaker.step_bake rfl rfl rfl rfl (rowKeys_empty "Quests")
  have hstart : outdatedBakes.bakes = [firstBaker.bake, questBaker.bake] := rfl
  have hempty : outdatedBakes.store = .empty := rfl
  obtain ⟨hbakes, hstore⟩ := SharedBakes.step_of_getElem? (σ := outdatedBakes) (i := 0)
    (p := firstBaker.bake) (by rw [hstart]; rfl)
  rw [hempty, hstep₁] at hstore
  rw [hstart, hempty, hstep₁] at hbakes
  obtain ⟨hbakes', hstore'⟩ := SharedBakes.step_of_getElem? (σ := outdatedBakes.step 0) (i := 1)
    (p := questBaker.bake) (by rw [hbakes]; rfl)
  rw [hstore, hstep₂] at hstore'
  rw [hbakes, hstore, hstep₂] at hbakes'
  exact ⟨s₁, s₂, hs₁, hs₂, hbakes', hstore'⟩

/-- The bake of both quests is then about to save. -/
theorem commits_questBaker {A : String → Except BakeError (List String) → Prop}
    {s₁ s₂ : BakeState catalog} (hs₂ : s₂.Holds A questBaker questBaker.bakedSheets)
    (hbakes : (outdatedBakes.run [0, 1]).bakes = [firstBaker.finish s₁, questBaker.finish s₂])
    (hstore : (outdatedBakes.run [0, 1]).store = .empty) :
    (outdatedBakes.run [0, 1]).Commits 1 (questBaker.link s₂) ∧
      Saved (questBaker.plan (questBaker.link s₂).container s₂.baked) .empty
        ((outdatedBakes.run [0, 1]).step 1).store := by
  rw [← hstore]
  refine Baker.commits_finish hs₂ rfl ?_ ?_ ?_
  · rw [hbakes]
    rfl
  · rw [hstore]
    exact opensRows_empty
  · rw [hstore]
    exact ⟨[], rfl⟩

/-- Nothing was kept that a bake was told of which the empty store has answered. -/
theorem nodup_of_empty (file : String) (told : List String)
    (h : .ok told = ArtifactStore.empty.rowKeys file) : told.Nodup := by
  obtain rfl := Except.ok.inj (h.trans (rowKeys_empty file))
  exact List.nodup_nil

end Game

/-- Of the two bakes that have been told that nothing is kept, the one of both quests saves first:
its rows are those that its manifest lists. -/
theorem SharedBakes.rows_of_commit_quests : ∃ (schedule : List Nat) (i : Nat)
    (out : BakeOutput Game.catalog) (keys : List String),
    let σ := (start [Game.firstBaker, Game.questBaker] .empty).run schedule
    σ.Commits i out ∧
      ((start [Game.firstBaker, Game.questBaker] .empty).run (schedule ++ [i])).store.rowKeys
        "Quests" = .ok keys ∧ ∀ key, key ∈ keys ↔ key ∈ ["1", "2"] := by
  obtain ⟨s₁, s₂, hs₁, hs₂, hbakes, hstore⟩ := Game.exists_run_outdated
  have hids : ∀ b ∈ [Game.firstBaker, Game.questBaker], ∀ d ∈ b.schema.sheets,
      (Game.catalog.type d.id).ResolutionBlind :=
    List.forall_mem_cons.mpr ⟨Game.resolutionBlind_questSheets,
      List.forall_mem_singleton.mpr Game.resolutionBlind_questSheets⟩
  obtain ⟨hcommit, -⟩ := Game.commits_questBaker hs₂ hbakes hstore
  obtain ⟨b, hb, -, -, hrows⟩ := rows_of_commit hids sorted_empty [0, 1] hcommit
  obtain rfl : Game.questBaker = b := Option.some.inj hb
  have hsheets := Game.sheets_manifestOf hs₂ rfl
  rw [Game.keys_ingested_questSheet] at hsheets
  obtain ⟨first, rest, told, kept, keys, hschedule, -, -, hkeys, -, -, -, hexact⟩ :=
    hrows _ (by rw [hsheets]; exact List.mem_singleton_self _)
  refine ⟨[0, 1], 1, _, keys, hcommit, hkeys, hexact fun during j later hrest => ?_⟩
  -- the bake had one turn before, the last one
  exfalso
  cases first with
  | nil => exact absurd (List.cons.inj hschedule).1 (by decide)
  | cons i first =>
    have hlength := congrArg List.length hschedule
    rw [hrest] at hlength
    simp only [List.length_cons, List.length_append, List.length_nil] at hlength
    omega

/-- A bake of one quest asks for the kept keys, a bake of two quests saves, and then the first one
saves. Its manifest lists one quest, but the other one is still among the rows: the bake was not
told of it, so it has not removed it. -/
theorem SharedBakes.commit_leaves_orphan : ∃ (schedule : List Nat) (i : Nat)
    (out : BakeOutput Game.catalog) (m : Manifest) (sheet : SheetArtifact) (keys : List String),
    let σ := (start [Game.firstBaker, Game.questBaker] .empty).run schedule
    σ.Commits i out ∧ (σ.step i).store.manifest = .ok (some m) ∧ sheet ∈ m.sheets ∧
      (σ.step i).store.rowKeys sheet.fileName = .ok keys ∧ "2" ∈ keys ∧ "2" ∉ sheet.keys := by
  obtain ⟨s₁, s₂, hs₁, hs₂, hbakes, hstore⟩ := Game.exists_run_outdated
  -- the bake of both quests saves
  obtain ⟨-, hsaved₂⟩ := Game.commits_questBaker hs₂ hbakes hstore
  have hsheets₂ := Game.sheets_manifestOf hs₂ rfl
  obtain ⟨kept₂, told₂, keys₂, -, -, hkeys₂, hmem₂⟩ := Baker.rowKeys_of_saved hs₂
    Game.resolutionBlind_questSheets Game.nodup_of_empty sorted_empty hsaved₂
    (by rw [hsheets₂]; exact List.mem_singleton_self _)
  have hthere : "2" ∈ keys₂ := by
    refine (hmem₂ "2").mpr (Or.inl ?_)
    rw [Game.keys_ingested_questSheet]
    exact List.mem_cons_of_mem _ (List.mem_singleton_self _)
  -- the bake of the first quest has been told of nothing, and saves
  let σ := Game.outdatedBakes.run [0, 1, 1]
  have hstep : σ = (Game.outdatedBakes.run [0, 1]).step 1 := rfl
  have hfirst : σ.bakes[0]? = some (Game.firstBaker.finish s₁) := by
    rw [hstep, (step_of_getElem? (p := Game.questBaker.finish s₂) (by rw [hbakes]; rfl)).1, hbakes]
    rfl
  obtain ⟨es, -, hmanifest₂⟩ := hsaved₂.manifest
  obtain ⟨hcommit, hsaved⟩ := Baker.commits_finish (σ := σ) hs₁ rfl hfirst hsaved₂.opensRows
    ⟨_, entries_of_table? hmanifest₂⟩
  have hsheets := Game.sheets_manifestOf hs₁ rfl
  rw [Game.keys_ingested_firstBaker] at hsheets
  obtain ⟨kept, told, keys, hkept, htold, hkeys, hmem⟩ := Baker.rowKeys_of_saved hs₁
    Game.resolutionBlind_questSheets Game.nodup_of_empty (sorted_run sorted_empty [0, 1, 1]) hsaved
    (by rw [hsheets]; exact List.mem_singleton_self _)
  obtain rfl := Except.ok.inj (hkeys₂.symm.trans hkept)
  obtain rfl := Except.ok.inj (htold.trans (Game.rowKeys_empty _))
  refine ⟨[0, 1, 1], 0, _, _, ⟨"Quests", "Quests", "Quest", ["1"]⟩, keys, hcommit,
    Baker.manifest_of_saved hs₁ hsaved (Game.fits_manifest_firstBaker hs₁),
    by rw [hsheets]; exact List.mem_singleton_self _, hkeys,
    (hmem "2").mpr (Or.inr ⟨hthere, List.not_mem_nil⟩), by decide⟩

end TypedSheets
