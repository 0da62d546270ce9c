import TypedSheets.Bake.Run
import TypedSheets.Proofs.Artifact.Process
import TypedSheets.Proofs.Container.Indexed
import TypedSheets.Proofs.Source

/-!
# Runs of bakes

A bake goes through the declared sheets in order. Whatever it is answered about kept keys, once it
gets to the end its container holds the tables of the sheets that are not skipped, each made of the
raw rows of the source, and its plan has a part for each of them.

## Main definitions

* `Baker.sheetFiles` — the declared sheets that are baked, each with its file
* `Baker.ingested` — the table of the raw rows of a sheet
* `BakeState.Holds` — the state of a bake that has baked these sheets

## Main results

* `Baker.exists_of_mem_ingested`, `Baker.keys_ingested` — the rows of a table and their keys
* `Baker.addSheet_holds` — what adding one sheet does to a state
* `Baker.savesLast_bake` — a bake fails, or saves what its last state gives
-/

namespace TypedSheets

variable {c : Catalog}

namespace Baker

/-! ### Sheets and files -/

/-- The declared sheets that are baked, each with its file; the first is declared at `position`. -/
def sheetFiles (b : Baker c) (position : Nat) : List (SheetDecl c) → List (SheetDecl c × String)
  | [] => []
  | d :: rest =>
    if SheetName.isPseudo d.name && !b.schema.allowPseudo then b.sheetFiles (position + 1) rest
    else
      match SheetName.fileName? d.name (some position) with
      | none => b.sheetFiles (position + 1) rest
      | some file => (d, file) :: b.sheetFiles (position + 1) rest

/-- The sheets of the schema that are baked, each with its file. -/
def bakedSheets (b : Baker c) : List (SheetDecl c × String) := b.sheetFiles 0 b.schema.sheets

theorem sheetFiles_congr {b b' : Baker c} (h : b'.schema = b.schema) (position : Nat)
    (ds : List (SheetDecl c)) : b'.sheetFiles position ds = b.sheetFiles position ds := by
  induction ds generalizing position with
  | nil => rfl
  | cons d rest ih => rw [sheetFiles, sheetFiles, h, ih]

theorem bakedSheets_congr {b b' : Baker c} (h : b'.schema = b.schema) :
    b'.bakedSheets = b.bakedSheets := by
  rw [bakedSheets, bakedSheets, sheetFiles_congr h, h]

/-- The sheets that are baked are declared. -/
theorem mem_of_mem_sheetFiles {b : Baker c} {position : Nat} {ds : List (SheetDecl c)}
    {p : SheetDecl c × String} (h : p ∈ b.sheetFiles position ds) : p.1 ∈ ds := by
  induction ds generalizing position with
  | nil => exact absurd h List.not_mem_nil
  | cons d rest ih =>
    rw [sheetFiles] at h
    split at h
    · exact List.mem_cons_of_mem _ (ih h)
    · split at h
      · exact List.mem_cons_of_mem _ (ih h)
      · rcases List.mem_cons.mp h with rfl | h
        · exact List.mem_cons_self
        · exact List.mem_cons_of_mem _ (ih h)

/-- The raw rows of a sheet; none if there are none to be had. -/
def rawRows (b : Baker c) (name : String) : List RawRow :=
  match b.source name with
  | .ok raws => raws.getD []
  | .error _ => []

theorem rawRows_of_source {b : Baker c} {name : String} {raws : Option (List RawRow)}
    (h : b.source name = .ok raws) : b.rawRows name = raws.getD [] := by
  rw [rawRows, h]

/-- The raw rows of a sheet are among those that the source gives, if it gives any. -/
theorem exists_of_mem_rawRows {b : Baker c} {name : String} {raw : RawRow}
    (h : raw ∈ b.rawRows name) : ∃ raws, b.source name = .ok (some raws) ∧ raw ∈ raws := by
  rw [rawRows] at h
  split at h
  · next raws hraws =>
    cases raws with
    | none => exact absurd h List.not_mem_nil
    | some raws => exact ⟨raws, hraws, h⟩
  · exact absurd h List.not_mem_nil

/-- The table of the raw rows of a sheet. -/
def ingested (b : Baker c) (d : SheetDecl c) : AnyTable c :=
  ⟨d.id, (Table.ingest (c.type d.id) d.name b.schema.naming (b.rawRows d.name)).1⟩

theorem ingested_congr {b b' : Baker c} (hschema : b'.schema = b.schema)
    (hsource : b'.source = b.source) (d : SheetDecl c) : b'.ingested d = b.ingested d := by
  rw [ingested, ingested, rawRows, rawRows, hschema, hsource]

theorem name_ingested (b : Baker c) (d : SheetDecl c) : (b.ingested d).name = d.name :=
  Table.name_ingest _ _ _ _

theorem indexed_ingested (b : Baker c) (d : SheetDecl c) : (b.ingested d).table.Indexed :=
  Table.indexed_ingest _ _ _ _

/-- Every row of the table was read from a raw row of the source. -/
theorem exists_of_mem_ingested {b : Baker c} {d : SheetDecl c} {row : (c.type d.id).Row}
    (h : row ∈ (b.ingested d).table.rows.toList) :
    ∃ raw ∈ b.rawRows d.name, (c.type d.id).record.read b.schema.naming raw = .ok row :=
  (Table.exists_of_mem_ingest h).2

/-- Raw rows that all convert, to rows with keys of their own, give these keys. -/
theorem keys_ingested {b : Baker c} {d : SheetDecl c} {rows : List (c.type d.id).Row}
    (hrows : List.Forall₂ (fun raw row => (c.type d.id).record.read b.schema.naming raw = .ok row ∧
      isValidKey ((c.type d.id).key row) = true) (b.rawRows d.name) rows)
    (hnodup : (rows.map (c.type d.id).key).Nodup) :
    (b.ingested d).keys = rows.map (c.type d.id).key :=
  congrArg (List.map (c.type d.id).key) (Table.rows_ingest hrows hnodup)

end Baker

/-- What a bake keeps of a sheet: its file, and the kept keys that the sheet has no longer. -/
def BakedSheet.Of (A : String → Except BakeError (List String) → Prop) (b : Baker c)
    (sheet : SheetDecl c × String) (p : BakedSheet) : Prop :=
  p.fileName = sheet.2 ∧ ∃ kept, A sheet.2 (.ok kept) ∧
    p.removed = ((ExistingKeys.mk sheet.2 kept).diff (b.ingested sheet.1).keys).removed

/-- The state of a bake that has baked these sheets, and was answered as `A` allows. -/
structure BakeState.Holds (A : String → Except BakeError (List String) → Prop) (b : Baker c)
    (s : BakeState c) (sheets : List (SheetDecl c × String)) : Prop where
  indexed : s.container.Indexed
  naming_eq : s.container.naming = b.schema.naming
  tables_eq : s.container.tables.toList = sheets.map fun p => b.ingested p.1
  baked : List.Forall₂ (BakedSheet.Of A b) sheets s.baked
  files_nodup : (sheets.map Prod.snd).Nodup

namespace BakeState

variable {A : String → Except BakeError (List String) → Prop} {b : Baker c} {s : BakeState c}
  {sheets : List (SheetDecl c × String)}

/-- The files of the state are those of the sheets. -/
theorem Holds.map_fileName (h : s.Holds A b sheets) :
    s.baked.map BakedSheet.fileName = sheets.map Prod.snd := by
  obtain ⟨-, -, -, hbaked, -⟩ := h
  generalize s.baked = ps at hbaked ⊢
  induction hbaked with
  | nil => rfl
  | cons hp _ ih => rw [List.map_cons, List.map_cons, hp.1, ih]

theorem holds_start (A : String → Except BakeError (List String) → Prop) (b : Baker c) :
    b.start.Holds A b [] where
  indexed := Container.indexed_empty c b.schema.naming
  naming_eq := rfl
  tables_eq := rfl
  baked := .nil
  files_nodup := List.nodup_nil

theorem Holds.skip (h : s.Holds A b sheets) (name : String) :
    (Baker.skip s name).Holds A b sheets :=
  ⟨h.indexed, h.naming_eq, h.tables_eq, h.baked, h.files_nodup⟩

end BakeState

namespace Baker

variable {A : String → Except BakeError (List String) → Prop} {b : Baker c} {s next : BakeState c}
  {sheets : List (SheetDecl c × String)} {d : SheetDecl c} {position : Nat} {file : String}

/-! ### One sheet -/

theorem sheetFiles_of_fileFor_none {rest : List (SheetDecl c)}
    (h : b.fileFor s position d.name = .ok none) :
    b.sheetFiles position (d :: rest) = b.sheetFiles (position + 1) rest := by
  rw [fileFor] at h
  split at h
  · cases h
  · split at h
    · next hskip => rw [sheetFiles, if_pos hskip]
    · split at h
      · cases h
      · split at h <;> cases h

theorem sheetFiles_of_fileFor_some (rest : List (SheetDecl c))
    (h : b.fileFor s position d.name = .ok (some file)) :
    b.sheetFiles position (d :: rest) = (d, file) :: b.sheetFiles (position + 1) rest ∧
      file ∉ s.baked.map BakedSheet.fileName := by
  -- a sheet with a file is neither blank nor left out, and its file is not taken
  rw [fileFor] at h
  split at h
  · cases h
  · split at h
    · cases h
    · next hkeep =>
      split at h
      · cases h
      · next file' hfile =>
        split at h
        · cases h
        · next hnew =>
          cases h
          refine ⟨?_, ?_⟩
          · rw [sheetFiles, if_neg hkeep, hfile]
          · intro hmem
            obtain ⟨p, hp, hname⟩ := List.mem_map.mp hmem
            exact hnew (List.any_eq_true.mpr ⟨p, hp, beq_iff_eq.mpr hname⟩)

/-- Adding a sheet reads its raw rows and compares its keys with the kept ones. -/
theorem addSheet_eq_ok {kept : List String} (h : b.addSheet s d file kept = .ok next) :
    s.container.insert (b.ingested d) = .ok next.container ∧ next.baked = s.baked ++
      [⟨file, ((ExistingKeys.mk file kept).diff (b.ingested d).keys).removed⟩] := by
  rw [addSheet] at h
  split at h
  · cases h
  · next raws hsource =>
    have hraws : b.rawRows d.name = raws.getD [] := rawRows_of_source hsource
    simp only [ingested, hraws]
    generalize Table.ingest (c.type d.id) d.name b.schema.naming (raws.getD []) = made at h ⊢
    obtain ⟨table, issues⟩ := made
    dsimp only at h ⊢
    split at h
    · cases h
    · next container hinsert =>
      cases h
      exact ⟨hinsert, rfl⟩

/-- The state in which a sheet is added has baked one more. -/
theorem addSheet_holds {kept : List String} (h : s.Holds A b sheets) (hkept : A file (.ok kept))
    (hfile : file ∉ s.baked.map BakedSheet.fileName)
    (hadd : b.addSheet s d file kept = .ok next) : next.Holds A b (sheets ++ [(d, file)]) := by
  obtain ⟨hinsert, hbaked⟩ := addSheet_eq_ok hadd
  have hpush := (h.indexed.insert_eq_ok_iff.mp hinsert).2
  -- index, naming, tables, files and the files' names
  refine ⟨h.indexed.insert (b.indexed_ingested d) hinsert, ?_, ?_, ?_, ?_⟩
  · rw [hpush]
    exact h.naming_eq
  · rw [hpush, Container.tables_push, h.tables_eq, List.map_append]
    rfl
  · rw [hbaked]
    exact List.rel_append h.baked (.cons ⟨rfl, kept, hkept, rfl⟩ .nil)
  · rw [h.map_fileName] at hfile
    rw [List.map_append]
    exact List.nodup_append.mpr ⟨h.files_nodup, List.pairwise_singleton _ _, by
      rintro a ha x hx rfl
      rw [List.mem_singleton.mp hx] at ha
      exact hfile ha⟩

/-! ### All sheets -/

/-- Sheets are added one after the other, or the bake fails; what comes behind them starts in a
state that has baked them all. -/
theorem savesLast_addSheets {α : Type} {Q : SavePlan → α → Prop}
    {finish : BakeState c → StoreProcess (Except BakeError α)} {ds : List (SheetDecl c)}
    (h : s.Holds A b sheets)
    (hfinish : ∀ s : BakeState c, s.Holds A b (sheets ++ b.sheetFiles position ds) →
      StoreProcess.SavesLast A Q (finish s)) :
    StoreProcess.SavesLast A Q ((b.addSheets s position ds).bind fun
      | .error e => .done (.error e)
      | .ok s => finish s) := by
  -- the sheets that are baked already grow as those that are left get fewer
  induction ds generalizing s position sheets with
  | nil => exact hfinish s (by simpa [sheetFiles] using h)
  | cons d rest ih =>
    rw [addSheets]
    split
    -- the token is found set
    · exact .failed _
    · split
      -- the sheet has no file of its own
      · exact .failed _
      -- a pseudo sheet is left out
      · next hskip =>
        rw [sheetFiles_of_fileFor_none hskip] at hfinish
        exact ih (h.skip d.name) hfinish
      · next file hfile =>
        obtain ⟨hfiles, hnew⟩ := sheetFiles_of_fileFor_some rest hfile
        rw [hfiles] at hfinish
        -- the kept keys are asked for, and the sheet is added whatever they are
        refine .rowKeys fun answer hanswer => ?_
        cases answer with
        | error e => exact .failed e
        | ok kept =>
          dsimp only
          split
          · exact .failed _
          · next next hadd =>
            refine ih (addSheet_holds h hanswer hnew hadd) ?_
            rwa [List.append_cons] at hfinish

/-- Whatever a bake is answered, it fails, or it saves the plan of a state that has baked all
sheets. -/
theorem savesLast_bake (A : String → Except BakeError (List String) → Prop) (b : Baker c) :
    StoreProcess.SavesLast A (fun plan out => ∃ s : BakeState c, s.Holds A b b.bakedSheets ∧
      out = b.link s ∧ plan = b.plan out.container s.baked) b.bake := by
  refine savesLast_addSheets (BakeState.holds_start A b) fun s hs => ?_
  rw [finish]
  split
  · exact .failed _
  · split
    · exact .failed _
    · exact .save ⟨s, hs, rfl, rfl⟩

end Baker

end TypedSheets
