import TypedSheets.Proofs.Bake.Outcome

/-!
# The verdict of a bake

A bake that is never cancelled, on a store that does not fail, is decided by its declarations, by
whether the source can read its sheets, and by the number of their rows. If one of the declared
sheets is at fault the bake fails with the error of the first such sheet, and otherwise it succeeds.
What stands in the rows, and what the references and assets lead to, does not matter.

## Main definitions

* `Baker.fault?` — why a sheet cannot be baked behind others
* `Baker.faultAt?` — the same for the sheet at a position of the schema
* `Baker.Verdict` — the ends of a bake that goes on from a state

## Main results

* `Baker.bakeable_iff` — a bake has nothing against it if no sheet is at fault
* `Baker.verdict_of_holds` — the run through the declared sheets
* `Baker.run_bake_of_faults` — when a bake succeeds, and with which error it fails
-/

namespace TypedSheets

variable {c : Catalog}

namespace Baker

variable {b : Baker c} {s : BakeState c} {d : SheetDecl c} {position : Nat} {store : ArtifactStore}

/-! ### Sheets at fault -/

/-- Why there is no place for the table of a sheet behind those of others, if there is none. -/
def crowded? (b : Baker c) (earlier : List (SheetDecl c × String)) (d : SheetDecl c) :
    Option BakeError :=
  if d.name ∈ earlier.map fun p => p.1.name then some (.duplicateSheet d.name)
  else if maxSheets ≤ earlier.length then some (.capacity .sheets)
  else if RowKey.maxRow.toNat + 1 < (b.ingested d).size then
    some (.capacity (.rows d.name (b.ingested d).size))
  else none

/-- Why a sheet cannot be baked to a file behind others, if it cannot. -/
def unbaked? (b : Baker c) (earlier : List (SheetDecl c × String)) (d : SheetDecl c)
    (file : String) : Option BakeError :=
  if file ∈ earlier.map Prod.snd then some (.duplicateSheet d.name)
  else
    match b.source d.name with
    | .error e => some (.source e)
    | .ok _ => b.crowded? earlier d

/-- Why a sheet that is declared at a position is at fault behind others, if it is. A pseudo sheet
that is skipped never is. -/
def fault? (b : Baker c) (earlier : List (SheetDecl c × String)) (position : Nat)
    (d : SheetDecl c) : Option BakeError :=
  if Text.isBlank d.name then some (.invalidSheetName d.name)
  else if SheetName.isPseudo d.name && !b.schema.allowPseudo then none
  else (SheetName.fileName? d.name (some position)).bind (b.unbaked? earlier d)

/-- The sheets in front of a position that are baked. -/
def earlier (b : Baker c) (position : Nat) : List (SheetDecl c × String) :=
  b.sheetFiles 0 (b.schema.sheets.take position)

/-- Why the sheet that the schema declares at a position is at fault, if it is. -/
def faultAt? (b : Baker c) (position : Nat) : Option BakeError :=
  b.schema.sheets[position]?.bind (b.fault? (b.earlier position) position)

/-- The error is that of the first sheet at fault. -/
def FirstFault (b : Baker c) (e : BakeError) : Prop :=
  ∃ i, b.faultAt? i = some e ∧ ∀ j < i, b.faultAt? j = none

theorem FirstFault.unique {e e' : BakeError} (h : b.FirstFault e) (h' : b.FirstFault e') :
    e = e' := by
  obtain ⟨i, hi, hbefore⟩ := h
  obtain ⟨j, hj, hbefore'⟩ := h'
  -- neither position is in front of the other
  obtain hij | rfl | hij := Nat.lt_trichotomy i j
  · cases (hbefore' i hij).symm.trans hi
  · exact Option.some.inj (hi.symm.trans hj)
  · cases (hbefore j hij).symm.trans hj

/-- A sheet at fault is not a failing store. -/
theorem FirstFault.ne_table {e : BakeError} (h : b.FirstFault e) : e ≠ .table := by
  obtain ⟨i, hi, -⟩ := h
  rintro rfl
  obtain ⟨d, -, hd⟩ := Option.bind_eq_some_iff.mp hi
  rw [fault?] at hd
  split at hd
  · cases hd
  · split at hd
    · cases hd
    · obtain ⟨file, -, hfile⟩ := Option.bind_eq_some_iff.mp hd
      rw [unbaked?] at hfile
      split at hfile
      · cases hfile
      · split at hfile
        · cases hfile
        · rw [crowded?] at hfile
          split_ifs at hfile <;> cases hfile

/-! ### Sheets that go together -/

theorem sheetFiles_append (position : Nat) (ds ds' : List (SheetDecl c)) :
    b.sheetFiles position (ds ++ ds') =
      b.sheetFiles position ds ++ b.sheetFiles (position + ds.length) ds' := by
  induction ds generalizing position with
  | nil => rfl
  | cons d rest ih =>
    have hnext : position + 1 + rest.length = position + (d :: rest).length := by
      rw [List.length_cons]
      omega
    rw [List.cons_append, sheetFiles, sheetFiles, ih, hnext]
    split
    · rfl
    · split <;> rfl

theorem sheetFiles_pseudo (position : Nat)
    (hpseudo : (SheetName.isPseudo d.name && !b.schema.allowPseudo) = true) :
    b.sheetFiles position [d] = [] := by
  rw [sheetFiles, if_pos hpseudo]
  rfl

theorem sheetFiles_singleton {file : String}
    (hpseudo : ¬ (SheetName.isPseudo d.name && !b.schema.allowPseudo) = true)
    (hfile : SheetName.fileName? d.name (some position) = some file) :
    b.sheetFiles position [d] = [(d, file)] := by
  rw [sheetFiles, if_neg hpseudo, hfile]
  rfl

/-- Sheets that can be baked one after the other: `baked` are those that are not skipped. -/
structure GoTogether (b : Baker c) (ds : List (SheetDecl c))
    (baked : List (SheetDecl c × String)) : Prop where
  named : ∀ d ∈ ds, Text.isBlank d.name = false
  files_nodup : (baked.map Prod.snd).Nodup
  names_nodup : (baked.map fun p => p.1.name).Nodup
  source : ∀ p ∈ baked, ∃ raws, b.source p.1.name = .ok raws
  sheets_le : baked.length ≤ maxSheets
  rows_le : ∀ p ∈ baked, (b.ingested p.1).size ≤ RowKey.maxRow.toNat + 1

theorem goTogether_nil (b : Baker c) : b.GoTogether [] [] where
  named _ h := absurd h List.not_mem_nil
  files_nodup := List.nodup_nil
  names_nodup := List.nodup_nil
  source _ h := absurd h List.not_mem_nil
  sheets_le := Nat.zero_le _
  rows_le _ h := absurd h List.not_mem_nil

variable {ds : List (SheetDecl c)} {baked : List (SheetDecl c × String)}

theorem crowded?_eq_none_iff : b.crowded? baked d = none ↔
    d.name ∉ baked.map (fun p => p.1.name) ∧ baked.length < maxSheets ∧
      (b.ingested d).size ≤ RowKey.maxRow.toNat + 1 := by
  rw [crowded?]
  generalize RowKey.maxRow.toNat + 1 = limit
  split
  · next hname => simp [hname]
  · next hname =>
    split
    · next hsheets => simp [Nat.not_lt.mpr hsheets]
    · next hsheets =>
      split
      · next hrows => simp [Nat.not_le.mpr hrows]
      · next hrows => exact ⟨fun _ => ⟨hname, by omega, by omega⟩, fun _ => rfl⟩

theorem unbaked?_eq_none_iff {file : String} : b.unbaked? baked d file = none ↔
    file ∉ baked.map Prod.snd ∧ (∃ raws, b.source d.name = .ok raws) ∧
      b.crowded? baked d = none := by
  rw [unbaked?]
  split
  · next hfile => simp [hfile]
  · next hfile =>
    cases b.source d.name with
    | error e => simp
    | ok raws => simp [hfile]

theorem nodup_concat_iff {α : Type} {xs : List α} {x : α} :
    (xs ++ [x]).Nodup ↔ xs.Nodup ∧ x ∉ xs := by
  rw [← List.concat_eq_append, List.nodup_concat]
  exact and_comm

/-- Another sheet goes together with those in front of it if it can be baked behind them. -/
theorem goTogether_concat_iff {file : String} : b.GoTogether (ds ++ [d]) (baked ++ [(d, file)]) ↔
    b.GoTogether ds baked ∧ Text.isBlank d.name = false ∧ b.unbaked? baked d file = none := by
  rw [unbaked?_eq_none_iff, crowded?_eq_none_iff]
  constructor
  -- each condition on all sheets is that on the sheets before and on the last one
  · intro ⟨hnamed, hfiles, hnames, hsource, hsheets, hrows⟩
    rw [List.map_append] at hfiles hnames
    obtain ⟨hfiles, hfile⟩ := nodup_concat_iff.mp hfiles
    obtain ⟨hnames, hname⟩ := nodup_concat_iff.mp hnames
    rw [List.forall_mem_append, List.forall_mem_singleton] at hnamed hsource hrows
    rw [List.length_append, List.length_singleton] at hsheets
    exact ⟨⟨hnamed.1, hfiles, hnames, hsource.1, by omega, hrows.1⟩, hnamed.2, hfile, hsource.2,
      hname, by omega, hrows.2⟩
  · intro ⟨h, hblank, hfile, hraws, hname, hsheets, hrows⟩
    refine ⟨?_, ?_, ?_, ?_, ?_, ?_⟩
    · exact List.forall_mem_append.mpr ⟨h.named, List.forall_mem_singleton.mpr hblank⟩
    · rw [List.map_append]
      exact nodup_concat_iff.mpr ⟨h.files_nodup, hfile⟩
    · rw [List.map_append]
      exact nodup_concat_iff.mpr ⟨h.names_nodup, hname⟩
    · exact List.forall_mem_append.mpr ⟨h.source, List.forall_mem_singleton.mpr hraws⟩
    · rw [List.length_append, List.length_singleton]
      omega
    · exact List.forall_mem_append.mpr ⟨h.rows_le, List.forall_mem_singleton.mpr hrows⟩

/-- Declared sheets go together if those in front of the last one do, and it is not at fault. -/
theorem goTogether_sheetFiles_concat_iff :
    b.GoTogether (ds ++ [d]) (b.sheetFiles 0 (ds ++ [d])) ↔
      b.GoTogether ds (b.sheetFiles 0 ds) ∧ b.fault? (b.sheetFiles 0 ds) ds.length d = none := by
  rw [sheetFiles_append, Nat.zero_add, fault?]
  -- a blank name is no sheet, a pseudo sheet is left out, and any other is baked to a file
  by_cases hblank : Text.isBlank d.name = true
  · have hnot : ¬ b.GoTogether (ds ++ [d]) (b.sheetFiles 0 ds ++ b.sheetFiles ds.length [d]) := by
      intro h
      have := h.named d (List.mem_append_right _ List.mem_cons_self)
      rw [hblank] at this
      cases this
    simp [hblank, hnot]
  · have hname : Text.isBlank d.name = false := Bool.eq_false_iff.mpr hblank
    rw [if_neg hblank]
    by_cases hpseudo : (SheetName.isPseudo d.name && !b.schema.allowPseudo) = true
    · rw [if_pos hpseudo, sheetFiles_pseudo ds.length hpseudo, List.append_nil]
      constructor
      · intro h
        exact ⟨⟨(List.forall_mem_append.mp h.named).1, h.files_nodup, h.names_nodup, h.source,
          h.sheets_le, h.rows_le⟩, rfl⟩
      · rintro ⟨h, -⟩
        exact ⟨List.forall_mem_append.mpr ⟨h.named, List.forall_mem_singleton.mpr hname⟩,
          h.files_nodup, h.names_nodup, h.source, h.sheets_le, h.rows_le⟩
    · obtain ⟨file, hfile⟩ := SheetName.exists_fileName? d.name ds.length
      rw [if_neg hpseudo, sheetFiles_singleton hpseudo hfile, hfile, goTogether_concat_iff,
        Option.bind_some]
      simp [hname]

/-- Nothing is against a bake if none of the declared sheets is at fault. -/
theorem bakeable_iff : b.Bakeable ↔ ∀ i, b.faultAt? i = none := by
  -- the sheets in front of a position go together if none of them is at fault
  have hfront : ∀ n ≤ b.schema.sheets.length,
      b.GoTogether (b.schema.sheets.take n) (b.earlier n) ↔ ∀ i < n, b.faultAt? i = none := by
    intro n
    induction n with
    | zero =>
      exact fun _ => ⟨fun _ i hi => absurd hi (Nat.not_lt_zero i), fun _ => b.goTogether_nil⟩
    | succ n ih =>
      intro hn
      have hlength : (b.schema.sheets.take n).length = n := List.length_take_of_le (by omega)
      have hlast : b.faultAt? n = b.fault? (b.earlier n) n b.schema.sheets[n] := by
        rw [faultAt?, List.getElem?_eq_getElem hn, Option.bind_some]
      rw [earlier, List.take_succ_eq_append_getElem hn, goTogether_sheetFiles_concat_iff, hlength]
      rw [← earlier, ih (by omega), ← hlast]
      exact Nat.forall_lt_succ_right.symm
  have hall := hfront b.schema.sheets.length (Nat.le_refl _)
  rw [earlier, List.take_length] at hall
  constructor
  · intro h i
    by_cases hi : i < b.schema.sheets.length
    · exact hall.mp ⟨h.named, h.files_nodup, h.names_nodup, h.source, h.sheets_le, h.rows_le⟩ i hi
    · rw [faultAt?, List.getElem?_eq_none (Nat.le_of_not_lt hi)]
      rfl
  · intro h
    obtain ⟨hnamed, hfiles, hnames, hsource, hsheets, hrows⟩ := hall.mpr fun i _ => h i
    exact ⟨hnamed, hfiles, hnames, hsource, hsheets, hrows⟩

/-! ### The run through the declared sheets -/

section Run

variable {earlier : List (SheetDecl c × String)} {e : BakeError}
  (hs : s.Holds (fun _ _ => True) b earlier)

include hs

theorem refusal?_of_holds (d : SheetDecl c) :
    s.container.refusal? (b.ingested d) = b.crowded? earlier d := by
  have hnames : s.container.sheetNames = earlier.map fun p => p.1.name := by
    rw [Container.sheetNames, hs.tables_eq, List.map_map]
    exact List.map_congr_left fun p _ => b.name_ingested p.1
  have hsize : s.container.size = earlier.length := by
    rw [← Container.length_sheetNames, hnames, List.length_map]
  simp only [Container.refusal?, crowded?, hs.indexed.contains_byName, b.name_ingested, hnames,
    hsize]

/-- Whether a sheet is added does not depend on the keys that are kept of it. -/
theorem addSheet_of_holds (d : SheetDecl c) (file : String) (kept : List String) :
    match b.source d.name, b.crowded? earlier d with
    | .error e, _ => b.addSheet s d file kept = .error (.source e)
    | .ok _, some e => b.addSheet s d file kept = .error e
    | .ok _, none => ∃ next, b.addSheet s d file kept = .ok next := by
  cases hsource : b.source d.name with
  | error e => simp only [addSheet, hsource]
  | ok raws =>
    have hraws : b.rawRows d.name = raws.getD [] := rawRows_of_source hsource
    have hrefusal := refusal?_of_holds hs d
    simp only [ingested, hraws] at hrefusal
    simp only [addSheet, hsource, Container.insert, hrefusal]
    cases b.crowded? earlier d with
    | some e => rfl
    | none => exact ⟨_, rfl⟩

theorem mem_files_of_holds (file : String) :
    (s.baked.any fun p => p.fileName == file) = true ↔ file ∈ earlier.map Prod.snd := by
  rw [any_fileName, hs.map_fileName, List.any_eq_true]
  exact ⟨fun ⟨f, hf, heq⟩ => eq_of_beq heq ▸ hf, fun hf => ⟨file, hf, beq_self_eq_true file⟩⟩

/-- A sheet at fault gets no file, or is not added to it. -/
theorem step_of_fault (h : b.fault? earlier position d = some e) :
    b.fileFor s position d.name = .error e ∨
      ∃ file, b.fileFor s position d.name = .ok (some file) ∧
        ∀ kept, b.addSheet s d file kept = .error e := by
  -- the checks come in this order: blank name, pseudo sheet, file name, and then source and
  -- container
  rw [fault?] at h
  split at h
  · next hblank =>
    cases h
    exact .inl (by rw [fileFor, if_pos hblank])
  · next hblank =>
    split at h
    · cases h
    · next hpseudo =>
      obtain ⟨file, hfile⟩ := SheetName.exists_fileName? d.name position
      rw [hfile, Option.bind_some, unbaked?] at h
      split at h
      · next hmem =>
        cases h
        refine .inl ?_
        rw [fileFor, if_neg hblank, if_neg hpseudo, hfile]
        exact if_pos ((mem_files_of_holds hs file).mpr hmem)
      · next hnew =>
        refine .inr ⟨file, ?_, ?_⟩
        · refine fileFor_of_new (Bool.eq_false_iff.mpr hblank) hpseudo hfile ?_
          rwa [hs.map_fileName]
        · intro kept
          have hadd := addSheet_of_holds hs d file kept
          cases hsource : b.source d.name with
          | error e' =>
            rw [hsource] at h hadd
            cases h
            exact hadd
          | ok raws =>
            rw [hsource] at h
            simp only at h
            rw [hsource, h] at hadd
            exact hadd

/-- A sheet that is not at fault is skipped, or gets a file and is added. -/
theorem step_of_no_fault (h : b.fault? earlier position d = none) :
    b.fileFor s position d.name = .ok none ∨
      ∃ file, b.fileFor s position d.name = .ok (some file) ∧
        ∀ kept, ∃ next, b.addSheet s d file kept = .ok next := by
  -- the same checks as for a fault, all of them passed
  rw [fault?] at h
  split at h
  · cases h
  · next hblank =>
    split at h
    · next hpseudo =>
      exact .inl (fileFor_of_pseudo s position (Bool.eq_false_iff.mpr hblank) hpseudo)
    · next hpseudo =>
      obtain ⟨file, hfile⟩ := SheetName.exists_fileName? d.name position
      rw [hfile, Option.bind_some, unbaked?_eq_none_iff] at h
      obtain ⟨hnew, ⟨raws, hsource⟩, hroom⟩ := h
      refine .inr ⟨file, ?_, ?_⟩
      · refine fileFor_of_new (Bool.eq_false_iff.mpr hblank) hpseudo hfile ?_
        rwa [hs.map_fileName]
      · intro kept
        have hadd := addSheet_of_holds hs d file kept
        rw [hsource, hroom] at hadd
        exact hadd

end Run

/-- How a run goes on from a position of the schema: the store fails, the first sheet at fault that
is left ends it, or no sheet is at fault. -/
inductive Verdict (b : Baker c) (position : Nat) (store : ArtifactStore) :
    Except BakeError (BakeState c) × ArtifactStore → Prop where
  | storage (hstore : ¬ store.OpensRows) : Verdict b position store (.error .table, store)
  | fault {i : Nat} {e : BakeError} (hi : position ≤ i) (he : b.faultAt? i = some e)
    (hbefore : ∀ j, position ≤ j → j < i → b.faultAt? j = none) :
    Verdict b position store (.error e, store)
  | done {s : BakeState c} (hnone : ∀ i, position ≤ i → b.faultAt? i = none) :
    Verdict b position store (.ok s, store)

/-- What is said of the sheets behind one that is not at fault can be said of it and them. -/
theorem Verdict.cons {ended : Except BakeError (BakeState c) × ArtifactStore}
    (h : b.Verdict (position + 1) store ended) (hposition : b.faultAt? position = none) :
    b.Verdict position store ended := by
  cases h with
  | storage hstore => exact .storage hstore
  | fault hi he hbefore =>
    refine .fault (by omega) he fun j hj hji => ?_
    obtain rfl | hj := Nat.eq_or_lt_of_le hj
    · exact hposition
    · exact hbefore j hj hji
  | done hnone =>
    refine .done fun i hi => ?_
    obtain rfl | hi := Nat.eq_or_lt_of_le hi
    · exact hposition
    · exact hnone i hi

theorem rowKeys_error {file : String} {e : BakeError} (h : store.rowKeys file = .error e) :
    ¬ store.OpensRows ∧ e = .table := by
  rw [ArtifactStore.rowKeys] at h
  cases hes : store.entries (ArtifactStore.rowsTable file) with
  | error e' =>
    rw [hes] at h
    cases h
    refine ⟨fun hopens => ?_, ArtifactStore.entries_error hes⟩
    obtain ⟨es, hopen⟩ := hopens file
    cases hes.symm.trans hopen
  | ok es =>
    rw [hes] at h
    cases h

/-- From a state that has baked the sheets in front of a position, the run goes on through the
sheets that are left. -/
theorem verdict_of_holds (hnever : b.cancelled = .never) (store : ArtifactStore)
    {before ds : List (SheetDecl c)}
    (hschema : b.schema.sheets = before ++ ds)
    (hs : s.Holds (fun _ _ => True) b (b.sheetFiles 0 before)) :
    b.Verdict before.length store ((b.addSheets s before.length ds).run store) := by
  induction ds generalizing s before with
  | nil =>
    refine .done fun i hi => ?_
    rw [faultAt?, hschema, List.append_nil, List.getElem?_eq_none hi]
    rfl
  | cons d rest ih =>
    have hfault : b.faultAt? before.length = b.fault? (b.sheetFiles 0 before) before.length d := by
      rw [faultAt?, Baker.earlier, hschema, List.getElem?_append_right (Nat.le_refl _),
        Nat.sub_self, List.take_left]
      rfl
    have hgoes : b.cancelled before.length s.read = false := by rw [hnever, Cancellation.never]
    have hnext : b.schema.sheets = (before ++ [d]) ++ rest := by
      rw [hschema, List.append_assoc, List.singleton_append]
    have hlength : (before ++ [d]).length = before.length + 1 := List.length_append
    rw [addSheets, hgoes, if_neg Bool.false_ne_true]
    cases hd : b.fault? (b.sheetFiles 0 before) before.length d with
    | some e =>
      -- the run ends here: whatever is kept, this sheet is not added
      have hends : b.Verdict before.length store (.error e, store) :=
        .fault (Nat.le_refl _) (hfault.trans hd) fun j hj hji => absurd hj (Nat.not_le.mpr hji)
      obtain hfile | ⟨file, hfile, hadd⟩ := step_of_fault hs hd
      · rw [hfile]
        exact hends
      · rw [hfile]
        simp only [StoreProcess.run]
        cases hkept : store.rowKeys file with
        | error e' =>
          obtain ⟨hopens, rfl⟩ := rowKeys_error hkept
          exact .storage hopens
        | ok kept =>
          simp only [hadd kept]
          exact hends
    | none =>
      obtain hfile | ⟨file, hfile, hadd⟩ := step_of_no_fault hs hd
      · -- the sheet is skipped
        rw [hfile]
        have hfiles : b.sheetFiles 0 (before ++ [d]) = b.sheetFiles 0 before := by
          rw [sheetFiles_append, Nat.zero_add, sheetFiles_of_fileFor_none hfile]
          exact List.append_nil _
        have hrest := ih hnext (hfiles ▸ hs.skip d.name)
        rw [hlength] at hrest
        exact hrest.cons (hfault.trans hd)
      · rw [hfile]
        simp only [StoreProcess.run]
        cases hkept : store.rowKeys file with
        | error e' =>
          obtain ⟨hopens, rfl⟩ := rowKeys_error hkept
          exact .storage hopens
        | ok kept =>
          obtain ⟨next, hadd⟩ := hadd kept
          obtain ⟨hsingle, hnew⟩ := sheetFiles_of_fileFor_some [] hfile
          have hfiles : b.sheetFiles 0 (before ++ [d]) = b.sheetFiles 0 before ++ [(d, file)] := by
            rw [sheetFiles_append, Nat.zero_add, hsingle]
            rfl
          have hrest := ih hnext (hfiles ▸ addSheet_holds hs trivial hnew hadd)
          rw [hlength] at hrest
          simp only [hadd]
          exact hrest.cons (hfault.trans hd)

/-! ### The verdict -/

/-- A bake that is never cancelled ends in one of three ways: the store fails, which has a table
that cannot be opened, the first sheet at fault ends it, or no sheet is at fault and it succeeds. -/
theorem run_bake_cases (hnever : b.cancelled = .never) (store : ArtifactStore) :
    ((b.bake.run store).1 = .error .table ∧
        ¬ (store.OpensRows ∧ ∃ es, store.entries ArtifactStore.manifestTable = .ok es)) ∨
      (∃ e, b.FirstFault e ∧ (b.bake.run store).1 = .error e) ∨
      (∀ i, b.faultAt? i = none) ∧ ∃ out, (b.bake.run store).1 = .ok out := by
  have hsheets := verdict_of_holds hnever store (List.nil_append b.schema.sheets).symm
    (BakeState.holds_start _ b)
  rw [List.length_nil] at hsheets
  rw [bake, StoreProcess.run_bind]
  cases hended : (b.addSheets b.start 0 b.schema.sheets).run store with
  | mk result store₁ =>
    rw [hended] at hsheets
    cases hsheets with
    | storage hstore => exact .inl ⟨rfl, fun h => hstore h.1⟩
    | @fault i e _ he hbefore =>
      exact .inr (.inl ⟨e, ⟨i, he, fun j hj => hbefore j (Nat.zero_le j) hj⟩, rfl⟩)
    | @done s hnone =>
      -- all tables are there, each with its file, so what is left is to save them
      have hs := holds_of_run (A := fun _ _ => True) (fun _ => trivial) hended
      simp only [finish_of_holds hs, hnever, Cancellation.never, Bool.false_eq_true, if_false,
        StoreProcess.run]
      cases hsave : store.save (b.plan (b.link s).container s.baked) with
      | error e =>
        obtain rfl := ArtifactStore.save_error hsave
        refine .inl ⟨rfl, ?_⟩
        rintro ⟨hopens, hmanifest⟩
        obtain ⟨store', hsaved⟩ := exists_save_plan hs hopens hmanifest
        cases hsave.symm.trans hsaved
      | ok store' => exact .inr (.inr ⟨fun i => hnone i (Nat.zero_le i), _, rfl⟩)

/-- The store does not fail if its tables can be opened. -/
theorem run_bake_ne_table (hnever : b.cancelled = .never) (hopens : store.OpensRows)
    (hmanifest : ∃ es, store.entries ArtifactStore.manifestTable = .ok es) :
    (b.bake.run store).1 ≠ .error .table := by
  obtain ⟨-, hfails⟩ | ⟨e, hfirst, hrun⟩ | ⟨-, out, hrun⟩ := run_bake_cases hnever store
  · exact absurd ⟨hopens, hmanifest⟩ hfails
  · rw [hrun]
    intro h
    exact hfirst.ne_table (Except.error.inj h)
  · rw [hrun]
    intro h
    cases h

/-- The number of rows of a sheet is at most that of its raw rows. -/
theorem size_ingested_le {raws : Option (List RawRow)} (hsource : b.source d.name = .ok raws) :
    (b.ingested d).size ≤ (raws.getD []).length := by
  have hraws : b.rawRows d.name = raws.getD [] := rawRows_of_source hsource
  have hsize : (b.ingested d).size ≤ 0 + (b.rawRows d.name).length :=
    Table.size_acceptFrom_le (Table.empty (c.type d.id) d.name) 0 (b.rawRows d.name)
  rwa [hraws, Nat.zero_add] at hsize

/-- A bake that is never cancelled, on a store that does not fail, succeeds exactly if its sheets
have names and files of their own, can be read and fit in a container; otherwise it fails with the
error of the first declared sheet that is at fault. If it succeeds, so does every bake of the same
schema whose source can read the sheets and has places for their rows, whatever stands in the rows
and whatever references and assets lead to. -/
theorem run_bake_of_faults (b : Baker c) (hnever : b.cancelled = .never) (store : ArtifactStore)
    (hstore : (b.bake.run store).1 ≠ .error .table) :
    ((∃ out, (b.bake.run store).1 = .ok out) ↔ b.Bakeable) ∧
      (∀ e, (b.bake.run store).1 = .error e ↔ b.FirstFault e) ∧
      ∀ b' : Baker c, b'.schema = b.schema → b'.cancelled = .never →
        (∀ p ∈ b.bakedSheets, ∃ raws, b'.source p.1.name = .ok raws ∧
          (raws.getD []).length ≤ RowKey.maxRow.toNat + 1) →
        ∀ store', (b'.bake.run store').1 ≠ .error .table → b.Bakeable →
          ∃ out, (b'.bake.run store').1 = .ok out := by
  -- the store may stop a bake only by a table of another kind, so the sheets decide all else
  refine ⟨?_, ?_, ?_⟩
  · rw [bakeable_iff]
    obtain ⟨htable, -⟩ | ⟨e, ⟨i, he, -⟩, hrun⟩ | ⟨hnone, hrun⟩ := run_bake_cases hnever store
    · exact absurd htable hstore
    · constructor
      · rintro ⟨out, hout⟩
        cases hrun.symm.trans hout
      · intro hnone
        cases he.symm.trans (hnone i)
    · exact ⟨fun _ => hnone, fun _ => hrun⟩
  · intro e
    obtain ⟨htable, -⟩ | ⟨e', hfirst, hrun⟩ | ⟨hnone, out, hrun⟩ := run_bake_cases hnever store
    · exact absurd htable hstore
    · rw [hrun]
      exact ⟨fun h => Except.error.inj h ▸ hfirst, fun h => congrArg _ (hfirst.unique h)⟩
    · rw [hrun]
      constructor
      · intro h
        cases h
      · rintro ⟨i, he, -⟩
        cases he.symm.trans (hnone i)
  · intro b' hschema hnever' hsource store' hstore' h
    have hbaked : b'.bakedSheets = b.bakedSheets := bakedSheets_congr hschema
    -- whether sheets go together is told by the schema and by how many rows each of them has
    have hbakeable : b'.Bakeable :=
      { named := hschema ▸ h.named
        files_nodup := hbaked ▸ h.files_nodup
        names_nodup := hbaked ▸ h.names_nodup
        source := hbaked ▸ fun p hp => (hsource p hp).imp fun _ hraws => hraws.1
        sheets_le := hbaked ▸ h.sheets_le
        rows_le := by
          intro p hp
          obtain ⟨raws, hraws, hlength⟩ := hsource p (hbaked ▸ hp)
          exact (size_ingested_le hraws).trans hlength }
    obtain ⟨htable, -⟩ | ⟨e, ⟨i, he, -⟩, -⟩ | ⟨-, hrun⟩ := run_bake_cases hnever' store'
    · exact absurd htable hstore'
    · cases he.symm.trans (bakeable_iff.mp hbakeable i)
    · exact hrun

end Baker

/-- A bake of the quests whose schema declares their sheet twice. -/
def Game.twiceBaker : Baker Game.catalog :=
  { Game.questBaker with schema := ⟨[Game.questSheet, Game.questSheet], .pascal, false⟩ }

/-- The first of the two sheets is not at fault. -/
theorem Game.faultAt_twiceBaker : Game.twiceBaker.faultAt? 0 = none := by
  have hsize : (Game.twiceBaker.ingested Game.questSheet).size ≤ 2 :=
    Baker.size_ingested_le (b := Game.twiceBaker) (d := Game.questSheet) rfl
  have hroom : Game.twiceBaker.crowded? [] Game.questSheet = none :=
    Baker.crowded?_eq_none_iff.mpr ⟨List.not_mem_nil, by decide, hsize.trans (by decide)⟩
  have hbaked : Game.twiceBaker.unbaked? [] Game.questSheet "Quests" = none :=
    Baker.unbaked?_eq_none_iff.mpr ⟨List.not_mem_nil, ⟨_, rfl⟩, hroom⟩
  exact hbaked

/-- The bake of the quests succeeds, and that of their sheet declared twice fails with the error of
the second declaration. -/
theorem Baker.run_bake_of_faults_quests :
    (∃ out, (Game.questBaker.bake.run .empty).1 = .ok out) ∧
      (Game.twiceBaker.bake.run .empty).1 = .error (.duplicateSheet "Quests") := by
  have hopens := ArtifactStore.opensRows_empty
  obtain ⟨hok, -⟩ := run_bake_of_faults Game.questBaker rfl .empty
    (run_bake_ne_table rfl hopens ⟨[], rfl⟩)
  obtain ⟨-, herror, -⟩ := run_bake_of_faults Game.twiceBaker rfl .empty
    (run_bake_ne_table rfl hopens ⟨[], rfl⟩)
  refine ⟨hok.mpr Game.bakeable_questBaker, (herror _).mpr ⟨1, by decide, ?_⟩⟩
  intro j hj
  obtain rfl := Nat.lt_one_iff.mp hj
  exact Game.faultAt_twiceBaker

end TypedSheets
