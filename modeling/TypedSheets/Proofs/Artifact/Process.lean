import TypedSheets.Artifact.Load
import TypedSheets.Artifact.Process
import TypedSheets.Proofs.Container.Indexed

/-!
# Processes on a store

A process that saves at most once, and does nothing after it, leaves a store alone until then.
Whatever other processes do in between, either it fails and has changed nothing, or the store that
it leaves is the one that it saved.

A process that only reads leaves the store alone, but between two of its reads others may change it.
Loading is such a process: it reads the manifest, and then the rows of each sheet on their own. What
it gives is put together of these reads, and each of them may have seen another store.

## Main definitions

* `StoreProcess.commits` — the next transaction of a process is a save that is done
* `StoreProcess.SavesLast` — a process that asks for keys, and then fails or saves
* `StoreProcess.ReadsOnly` — no transaction of a process is a save
* `StoreProcess.Sees` — a process ends with a result if each read sees a store of some kind
* `ContainerSchema.Restored` — a table was restored from rows that one store gave
* `ContainerSchema.PutTogether` — a container was restored sheet by sheet

## Main results

* `StoreProcess.run_bind` — one process after another
* `StoreProcess.SavesLast.run_eq` — a process that is alone on a store
* `StoreProcess.SavesLast.step_eq` — one transaction among those of other processes
* `StoreProcess.ReadsOnly.step_store` — a transaction leaves the store
* `StoreProcess.Sees.run_eq` — a process that sees one store ends as if it were alone
* `ContainerSchema.putTogether_of_sees` — what loading gives
-/

namespace TypedSheets

namespace StoreProcess

variable {α β : Type}

/-- One process after another, both alone on a store. -/
theorem run_bind (f : α → StoreProcess β) (p : StoreProcess α) (s : ArtifactStore) :
    (p.bind f).run s = (f (p.run s).1).run (p.run s).2 := by
  induction p generalizing s with
  | done result => rfl
  | manifest next ih => exact ih _ s
  | rowKeys file next ih => exact ih _ s
  | rows file keys next ih => exact ih _ s
  | save plan next ih =>
    rw [bind, run, run]
    cases s.save plan with
    | error e => exact ih _ s
    | ok s' => exact ih _ s'

/-- Whether the next transaction of a process is a save that is done. -/
def commits (s : ArtifactStore) : StoreProcess α → Bool
  | save plan _ => (s.save plan).isOk
  | _ => false

/-- A process that asks for the keys of files, and then fails or saves and is done. What it may be
answered is `A`, and what it saves is with its result in the relation `Q`. -/
inductive SavesLast (A : String → Except BakeError (List String) → Prop) (Q : SavePlan → α → Prop) :
    StoreProcess (Except BakeError α) → Prop
  | failed (e : BakeError) : SavesLast A Q (.done (.error e))
  | rowKeys {file : String}
      {next : Except BakeError (List String) → StoreProcess (Except BakeError α)}
      (h : ∀ answer, A file answer → SavesLast A Q (next answer)) :
      SavesLast A Q (.rowKeys file next)
  | save {plan : SavePlan} {out : α} (h : Q plan out) :
      SavesLast A Q (.save plan fun saved => .done (saved.map fun _ => out))

variable {A : String → Except BakeError (List String) → Prop} {Q : SavePlan → α → Prop}
  {p : StoreProcess (Except BakeError α)}

/-- Alone on a store, the process fails and leaves the store as it was, or it saves. -/
theorem SavesLast.run_eq (h : SavesLast A Q p) {s : ArtifactStore}
    (hA : ∀ file, A file (s.rowKeys file)) :
    (∃ e, p.run s = (.error e, s)) ∨
      ∃ plan out s', Q plan out ∧ s.save plan = .ok s' ∧ p.run s = (.ok out, s') := by
  induction h with
  | failed e => exact Or.inl ⟨e, rfl⟩
  | rowKeys _ ih => exact ih _ (hA _)
  | @save plan out hQ =>
    cases hs : s.save plan with
    | error e =>
      refine Or.inl ⟨e, ?_⟩
      simp only [run, hs]
      rfl
    | ok s' =>
      refine Or.inr ⟨plan, out, s', hQ, hs, ?_⟩
      simp only [run, hs]
      rfl

/-- A transaction of the process leaves the store as it was, or it saves and the process is done. -/
theorem SavesLast.step_eq (h : SavesLast A Q p) {s : ArtifactStore}
    (hA : ∀ file, A file (s.rowKeys file)) :
    (SavesLast A Q (p.step s).1 ∧ (p.step s).2 = s ∧ p.commits s = false) ∨
      ∃ plan out s', Q plan out ∧ s.save plan = .ok s' ∧ p.step s = (.done (.ok out), s') ∧
        p.commits s = true := by
  cases h with
  | failed e => exact Or.inl ⟨.failed e, rfl, rfl⟩
  | rowKeys hnext => exact Or.inl ⟨hnext _ (hA _), rfl, rfl⟩
  -- a save that fails leaves the store, and one that succeeds ends the process
  | @save plan out hQ =>
    cases hs : s.save plan with
    | error e =>
      refine Or.inl ?_
      simp only [step, commits, hs]
      exact ⟨.failed e, trivial, rfl⟩
    | ok s' =>
      refine Or.inr ⟨plan, out, s', hQ, hs, ?_⟩
      simp only [step, commits, hs]
      exact ⟨rfl, rfl⟩

/-- A process that saves last has not saved when it is not done. -/
theorem SavesLast.not_done_ok (h : SavesLast A Q p) {out : α} : p ≠ .done (.ok out) := by
  cases h <;> simp

end StoreProcess

end TypedSheets

/-! ## Processes that read -/

namespace TypedSheets

namespace StoreProcess

variable {α : Type}

/-- No transaction of a process is a save. -/
def ReadsOnly : StoreProcess α → Prop
  | done _ => True
  | manifest next => ∀ a, (next a).ReadsOnly
  | rowKeys _ next => ∀ a, (next a).ReadsOnly
  | rows _ _ next => ∀ a, (next a).ReadsOnly
  | save _ _ => False

/-- A process ends with a result if each of its reads sees some store with the property `H`. -/
inductive Sees (H : ArtifactStore → Prop) : StoreProcess α → α → Prop
  | done (r : α) : Sees H (.done r) r
  | manifest {next : Except BakeError (Option Manifest) → StoreProcess α} {r : α}
      {s : ArtifactStore} (hs : H s) (h : Sees H (next s.manifest) r) : Sees H (.manifest next) r
  | rowKeys {file : String} {next : Except BakeError (List String) → StoreProcess α} {r : α}
      {s : ArtifactStore} (hs : H s) (h : Sees H (next (s.rowKeys file)) r) :
      Sees H (.rowKeys file next) r
  | rows {file : String} {keys : List String}
      {next : Except BakeError (List (String × List UInt8)) → StoreProcess α} {r : α}
      {s : ArtifactStore} (hs : H s) (h : Sees H (next (s.rows file keys)) r) :
      Sees H (.rows file keys next) r

variable {H : ArtifactStore → Prop} {p : StoreProcess α} {r : α} {s : ArtifactStore}

theorem ReadsOnly.step_store (h : p.ReadsOnly) (s : ArtifactStore) : (p.step s).2 = s := by
  cases p with
  | save plan next => exact absurd h id
  | _ => rfl

theorem ReadsOnly.step (h : p.ReadsOnly) (s : ArtifactStore) : (p.step s).1.ReadsOnly := by
  cases p with
  | done result => trivial
  | manifest next => exact h _
  | rowKeys file next => exact h _
  | rows file keys next => exact h _
  | save plan next => exact absurd h id

/-- One read of a store is one of those that a process sees. -/
theorem ReadsOnly.sees_of_step (h : p.ReadsOnly) (hs : H s) (hnext : Sees H (p.step s).1 r) :
    Sees H p r := by
  cases p with
  | done result => exact hnext
  | manifest next => exact .manifest hs hnext
  | rowKeys file next => exact .rowKeys hs hnext
  | rows file keys next => exact .rows hs hnext
  | save plan next => exact absurd h id

/-- A process that sees one store all the time ends as if it were alone on it. -/
theorem Sees.run_eq (h : Sees (fun s' => s' = s) p r) : p.run s = (r, s) := by
  induction h with
  | done r => rfl
  | manifest hs _ ih =>
    subst hs
    exact ih
  | rowKeys hs _ ih =>
    subst hs
    exact ih
  | rows hs _ ih =>
    subst hs
    exact ih

end StoreProcess

/-! ### Tables -/

namespace Table

variable {t : TableType} {table : Table t}

theorem name_keys_restoreFrom {kept : List (String × List UInt8)} {next : Table t}
    (h : table.restoreFrom kept = .ok next) :
    next.name = table.name ∧ next.keys = table.keys ++ kept.map Prod.fst := by
  -- on the entries still to be restored: each of them adds the key it is kept under
  induction kept generalizing table with
  | nil =>
    cases h
    exact ⟨rfl, (List.append_nil _).symm⟩
  | cons entry rest ih =>
    rw [restoreFrom] at h
    split at h
    · cases h
    · next row hrow =>
      split at h
      · cases h
      · next hkey =>
        split at h
        · cases h
        · next pushed hpush =>
          obtain ⟨hname, hkeys⟩ := ih h
          refine ⟨hname.trans (name_push hpush), ?_⟩
          rw [hkeys, keys_push hpush, not_not.mp hkey, List.append_assoc]
          rfl

/-- A restored table has the keys under which its rows were kept. -/
theorem keys_of_restore {name : String} {kept : List (String × List UInt8)}
    (h : restore t name kept = .ok table) : table.name = name ∧ table.keys = kept.map Prod.fst :=
  name_keys_restoreFrom h

end Table

theorem ArtifactStore.map_fst_rowsIn {table : String} {es : KeptRows} {keys : List String}
    {kept : List (String × List UInt8)} (h : rowsIn table es keys = .ok kept) :
    kept.map Prod.fst = keys := by
  induction keys generalizing kept with
  | nil =>
    cases h
    rfl
  | cons key rest ih =>
    rw [rowsIn] at h
    split at h
    · cases h
    · split at h
      · cases h
      · next rows hrows =>
        cases h
        rw [List.map_cons, ih hrows]

/-- The rows that a store gives are those of the keys that it was asked for. -/
theorem ArtifactStore.map_fst_rows {s : ArtifactStore} {file : String} {keys : List String}
    {kept : List (String × List UInt8)} (h : s.rows file keys = .ok kept) :
    kept.map Prod.fst = keys := by
  rw [rows] at h
  split at h
  · next hempty =>
    cases h
    exact (List.isEmpty_iff.mp hempty).symm
  · split at h
    · exact map_fst_rowsIn h
    · cases h

/-! ### Loading -/

namespace ContainerSchema

variable {c : Catalog} {schema : ContainerSchema c} {H : ArtifactStore → Prop}

theorem readsOnly_loadSheets (schema : ContainerSchema c) (b : Container c)
    (sheets : List SheetArtifact) : (schema.loadSheets b sheets).ReadsOnly := by
  induction sheets generalizing b with
  | nil => trivial
  | cons a rest ih =>
    rw [loadSheets]
    split
    · trivial
    · intro answer
      beta_reduce
      split
      · trivial
      · split
        · trivial
        · exact ih _

/-- Loading only reads. -/
theorem readsOnly_load (schema : ContainerSchema c) : schema.load.ReadsOnly := by
  intro answer
  beta_reduce
  split
  · trivial
  · trivial
  · exact schema.readsOnly_loadSheets _ _

/-- A table is that of a sheet in a manifest, and was restored from rows that one store gave for the
keys of the sheet. -/
structure Restored (H : ArtifactStore → Prop) (t : AnyTable c) (a : SheetArtifact) : Prop where
  name_eq : t.name = a.name
  record_eq : t.recordName = a.record
  keys_eq : t.keys = a.keys
  rows : ∃ s kept, H s ∧ s.rows a.fileName a.keys = .ok kept ∧
    Table.restore (c.type t.id) a.name kept = .ok t.table

/-- A container is empty as there was no manifest, or it has the sheets of a manifest that one store
gave, each restored from rows that one store gave. -/
def PutTogether (schema : ContainerSchema c) (H : ArtifactStore → Prop) (b : Container c) : Prop :=
  ∃ s, H s ∧ ((s.manifest = .ok none ∧ b = .empty c schema.naming) ∨
    ∃ m, s.manifest = .ok (some m) ∧ b.naming = m.naming ∧
      List.Forall₂ (Restored H) b.tables.toList m.sheets)

/-- A sheet that is restored is added to the container. -/
theorem restored_of_insert {b next : Container c} {d : SheetDecl c} {a : SheetArtifact}
    {s : ArtifactStore} {kept : List (String × List UInt8)} (hs : H s)
    (hd : schema.declared a = .ok d) (hkept : s.rows a.fileName a.keys = .ok kept)
    (h : restoreSheet b d a.name kept = .ok next) :
    ∃ t, Restored H t a ∧ next = b.push t := by
  -- a declaration that was found has the record type of the artifact
  have hrecord : d.recordName = a.record := by
    rw [declared] at hd
    split at hd
    · cases hd
    · split at hd
      · cases hd
      · next heq =>
        cases hd
        exact not_not.mp heq
  rw [restoreSheet] at h
  split at h
  · cases h
  · next table htable =>
    obtain ⟨hname, hkeys⟩ := Table.keys_of_restore htable
    refine ⟨⟨d.id, table⟩, ⟨hname, hrecord, ?_, s, kept, hs, hkept, htable⟩, ?_⟩
    · exact hkeys.trans (ArtifactStore.map_fst_rows hkept)
    · rw [Container.insert] at h
      split at h
      · cases h
      · exact (Except.ok.inj h).symm

theorem restored_of_sees {b last : Container c} {sheets : List SheetArtifact}
    (h : StoreProcess.Sees H (schema.loadSheets b sheets) (.ok last)) :
    last.naming = b.naming ∧ ∃ ts, last.tables.toList = b.tables.toList ++ ts ∧
      List.Forall₂ (Restored H) ts sheets := by
  induction sheets generalizing b with
  | nil =>
    cases h
    exact ⟨rfl, [], (List.append_nil _).symm, .nil⟩
  | cons a rest ih =>
    rw [loadSheets] at h
    split at h
    · cases h
    · next d hd =>
      -- the rows of the sheet are read in one transaction
      obtain _ | _ | _ | ⟨hs, h⟩ := h
      beta_reduce at h
      split at h
      · cases h
      · next kept hkept =>
        split at h
        · cases h
        · next next hnext =>
          obtain ⟨t, ht, rfl⟩ := restored_of_insert hs hd hkept hnext
          obtain ⟨hnaming, ts, hts, hrestored⟩ := ih h
          refine ⟨hnaming, t :: ts, ?_, .cons ht hrestored⟩
          rw [hts, Container.tables_push, List.append_assoc]
          rfl

/-- What loading gives is put together of what its reads saw. -/
theorem putTogether_of_sees {last : Container c}
    (h : StoreProcess.Sees H schema.load (.ok last)) : schema.PutTogether H last := by
  -- the manifest is read first, and the sheets with their keys come from it
  obtain _ | ⟨hs, h⟩ := h
  refine ⟨_, hs, ?_⟩
  beta_reduce at h
  split at h
  · cases h
  · next hnone =>
    cases h
    exact Or.inl ⟨hnone, rfl⟩
  · next m hm =>
    obtain ⟨hnaming, ts, hts, hrestored⟩ := restored_of_sees h
    exact Or.inr ⟨m, hm, hnaming, by rw [hts]; exact hrestored⟩

end ContainerSchema

end TypedSheets
