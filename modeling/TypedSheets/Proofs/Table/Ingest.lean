import TypedSheets.Proofs.Table.Keys

/-!
# Which raw rows become rows

Raw rows are read in order. One is kept if it converts to a row whose key is not blank and is not
that of a row that was kept before; so a row that is left out never stands in the way of a later
one. Every other raw row is reported once, with its position and the reason.

## Main definitions

* `TableType.ConvertsAt` — what the raw row at a position converts to
* `TableType.Keeps` — the positions of the raw rows that are kept
* `TableType.LeavesOut` — why a raw row is left out
* `Table.Ingests` — a table and issues are what raw rows give

## Main results

* `TableType.Keeps.unique` — which positions are kept is determined
* `Table.Ingests.accept_ok`, `Table.Ingests.accept_error` — one more raw row is kept or left out
* `Table.ingests_ingest` — reading raw rows gives their table and issues
* `Table.Ingests.perm_range` — every raw row is kept or left out, and only once
* `Table.ingest_outcome` — which rows a table of raw rows has, and which issues there are
-/

namespace TypedSheets

namespace TableType

variable {t : TableType} {naming : Naming} {raws : List RawRow} {raw : RawRow} {kept : List Nat}
  {i : Nat} {row : t.Row}

/-! ### Positions -/

/-- The raw row at a position converts to this row, and its key is not blank. -/
def ConvertsAt (t : TableType) (naming : Naming) (raws : List RawRow) (i : Nat) (row : t.Row) :
    Prop :=
  ∃ raw, raws[i]? = some raw ∧ t.record.read naming raw = .ok row ∧ isValidKey (t.key row) = true

/-- No row that is kept from an earlier position has the key of this one. -/
def NewAt (t : TableType) (naming : Naming) (raws : List RawRow) (kept : List Nat) (i : Nat)
    (row : t.Row) : Prop :=
  ∀ j ∈ kept, j < i → ∀ earlier, t.ConvertsAt naming raws j earlier → t.key earlier ≠ t.key row

/-- The positions of the raw rows that are kept, in order: those that convert to a row whose key is
not blank and that no row kept before has. -/
structure Keeps (t : TableType) (naming : Naming) (raws : List RawRow) (kept : List Nat) :
    Prop where
  increasing : kept.Pairwise (· < ·)
  mem_iff : ∀ i, i ∈ kept ↔ ∃ row, t.ConvertsAt naming raws i row ∧ t.NewAt naming raws kept i row

/-- A raw row that does not become a row, and why. -/
inductive LeavesOut (t : TableType) (name : String) (naming : Naming) (raws : List RawRow)
    (kept : List Nat) : RowIssue → Prop
  | unreadable {i : Nat} {raw : RawRow} {e : CellError} (hraw : raws[i]? = some raw)
      (hread : t.record.read naming raw = .error e) : LeavesOut t name naming raws kept
        ⟨i, none, e.message⟩
  | blank {i : Nat} {raw : RawRow} {row : t.Row} (hraw : raws[i]? = some raw)
      (hread : t.record.read naming raw = .ok row) (hkey : isValidKey (t.key row) = false) :
      LeavesOut t name naming raws kept ⟨i, none, "blank row id"⟩
  | repeated {i j : Nat} {row earlier : t.Row} (hrow : t.ConvertsAt naming raws i row)
      (hkept : j ∈ kept) (hlt : j < i) (hearlier : t.ConvertsAt naming raws j earlier)
      (hkey : t.key earlier = t.key row) : LeavesOut t name naming raws kept
        ⟨i, some (t.key row), (TableError.duplicateId name (t.key row)).message⟩

theorem ConvertsAt.lt_length (h : t.ConvertsAt naming raws i row) : i < raws.length := by
  obtain ⟨raw, hraw, -⟩ := h
  exact (List.getElem?_eq_some_iff.mp hraw).1

theorem ConvertsAt.unique {row' : t.Row} (h : t.ConvertsAt naming raws i row)
    (h' : t.ConvertsAt naming raws i row') : row = row' := by
  obtain ⟨raw, hraw, hread, -⟩ := h
  obtain ⟨raw', hraw', hread', -⟩ := h'
  obtain rfl := Option.some.inj (hraw.symm.trans hraw')
  exact Except.ok.inj (hread.symm.trans hread')

/-- Raw rows behind a position do not matter for it. -/
theorem convertsAt_concat_of_lt (hi : i < raws.length) :
    t.ConvertsAt naming (raws ++ [raw]) i row ↔ t.ConvertsAt naming raws i row := by
  rw [ConvertsAt, ConvertsAt, List.getElem?_append_left hi]

theorem convertsAt_concat_length : t.ConvertsAt naming (raws ++ [raw]) raws.length row ↔
    t.record.read naming raw = .ok row ∧ isValidKey (t.key row) = true := by
  simp [ConvertsAt]

theorem ConvertsAt.concat (h : t.ConvertsAt naming raws i row) (raw : RawRow) :
    t.ConvertsAt naming (raws ++ [raw]) i row :=
  (convertsAt_concat_of_lt h.lt_length).mpr h

theorem Keeps.lt_length (h : t.Keeps naming raws kept) (hi : i ∈ kept) : i < raws.length := by
  obtain ⟨row, hrow, -⟩ := (h.mem_iff i).mp hi
  exact hrow.lt_length

/-- Which positions are kept is determined, position by position. -/
theorem Keeps.unique {kept' : List Nat} (h : t.Keeps naming raws kept)
    (h' : t.Keeps naming raws kept') : kept = kept' := by
  have hmem : ∀ i, i ∈ kept ↔ i ∈ kept' := by
    intro i
    -- whether a row is new depends only on what is kept from earlier positions
    induction i using Nat.strong_induction_on with
    | _ i ih =>
      have hnew : ∀ row, t.NewAt naming raws kept i row ↔ t.NewAt naming raws kept' i row :=
        fun row => ⟨fun hrow j hj hlt => hrow j ((ih j hlt).mpr hj) hlt,
          fun hrow j hj hlt => hrow j ((ih j hlt).mp hj) hlt⟩
      rw [h.mem_iff, h'.mem_iff]
      simp only [hnew]
  have hperm : kept.Perm kept' := (List.perm_ext_iff_of_nodup
    (h.increasing.imp Nat.ne_of_lt) (h'.increasing.imp Nat.ne_of_lt)).mpr hmem
  exact hperm.eq_of_pairwise (fun _ _ _ _ hab hba => absurd (hab.trans hba) (Nat.lt_irrefl _))
    h.increasing h'.increasing

/-! ### One more raw row -/

/-- Earlier positions do not see the row at the end. -/
theorem newAt_concat_of_lt (last : List Nat) (hi : i < raws.length)
    (hlast : ∀ j ∈ last, raws.length ≤ j) : t.NewAt naming (raws ++ [raw]) (kept ++ last) i row ↔
      t.NewAt naming raws kept i row := by
  constructor
  · intro h j hj hlt earlier hearlier
    exact h j (List.mem_append_left _ hj) hlt earlier (hearlier.concat raw)
  · intro h j hj hlt earlier hearlier
    rcases List.mem_append.mp hj with hj | hj
    · exact h j hj hlt earlier ((convertsAt_concat_of_lt (hlt.trans hi)).mp hearlier)
    · exact absurd (hlast j hj) (by omega)

theorem not_convertsAt_of_gt (hi : raws.length < i) :
    ¬ t.ConvertsAt naming (raws ++ [raw]) i row := by
  intro h
  have hlt := h.lt_length
  rw [List.length_append, List.length_singleton] at hlt
  omega

/-- One more raw row that converts to a row with a new key is kept. -/
theorem Keeps.concat (h : t.Keeps naming raws kept)
    (hrow : t.ConvertsAt naming (raws ++ [raw]) raws.length row)
    (hnew : t.NewAt naming raws kept raws.length row) :
    t.Keeps naming (raws ++ [raw]) (kept ++ [raws.length]) where
  increasing := List.pairwise_append.mpr ⟨h.increasing, List.pairwise_singleton _ _,
    fun i hi j hj => List.mem_singleton.mp hj ▸ h.lt_length hi⟩
  mem_iff i := by
    -- a position is in front of the new one, it is the new one, or nothing stands there
    rw [List.mem_append, List.mem_singleton]
    rcases Nat.lt_trichotomy i raws.length with hi | rfl | hi
    · have hold : i ≠ raws.length := hi.ne
      simp only [hold, or_false, h.mem_iff, convertsAt_concat_of_lt hi,
        newAt_concat_of_lt [raws.length] hi (by simp)]
    · refine ⟨fun _ => ⟨row, hrow, fun j hj hlt earlier hearlier => ?_⟩, fun _ => Or.inr rfl⟩
      rcases List.mem_append.mp hj with hj | hj
      · exact hnew j hj hlt earlier ((convertsAt_concat_of_lt hlt).mp hearlier)
      · exact absurd (List.mem_singleton.mp hj) hlt.ne
    · refine iff_of_false ?_ ?_
      · rintro (hmem | rfl)
        · exact absurd (h.lt_length hmem) (by omega)
        · exact Nat.lt_irrefl _ hi
      · rintro ⟨row, hconverts, -⟩
        exact not_convertsAt_of_gt hi hconverts

/-- One more raw row that does not convert to a row with a new key changes nothing. -/
theorem Keeps.concat_same (h : t.Keeps naming raws kept)
    (hnone : ∀ row, t.ConvertsAt naming (raws ++ [raw]) raws.length row →
      ¬ t.NewAt naming raws kept raws.length row) :
    t.Keeps naming (raws ++ [raw]) kept where
  increasing := h.increasing
  mem_iff i := by
    -- the raw rows before the new one, the new one, and none behind it
    rcases Nat.lt_trichotomy i raws.length with hi | rfl | hi
    · have hsame : ∀ row, t.NewAt naming (raws ++ [raw]) kept i row ↔
          t.NewAt naming raws kept i row := fun row => by
        have hconcat : t.NewAt naming (raws ++ [raw]) (kept ++ []) i row ↔ _ :=
          newAt_concat_of_lt [] hi (by simp)
        rwa [List.append_nil] at hconcat
      simp only [h.mem_iff, convertsAt_concat_of_lt hi, hsame]
    · refine iff_of_false (fun hmem => Nat.lt_irrefl _ (h.lt_length hmem)) ?_
      rintro ⟨row, hrow, hnew⟩
      refine hnone row hrow fun j hj hlt earlier hearlier => ?_
      exact hnew j hj hlt earlier (hearlier.concat raw)
    · refine iff_of_false (fun hmem => absurd (h.lt_length hmem) (by omega)) ?_
      rintro ⟨row, hconverts, -⟩
      exact not_convertsAt_of_gt hi hconverts

/-- A reason stays one when more raw rows are read. -/
theorem LeavesOut.concat {name : String} {issue : RowIssue} {last : List Nat}
    (h : t.LeavesOut name naming raws kept issue) (raw : RawRow) :
    t.LeavesOut name naming (raws ++ [raw]) (kept ++ last) issue := by
  have hget : ∀ {i : Nat} {r : RawRow}, raws[i]? = some r → (raws ++ [raw])[i]? = some r :=
    fun hr => List.getElem?_append_left (List.getElem?_eq_some_iff.mp hr).1 ▸ hr
  cases h with
  | unreadable hraw hread => exact .unreadable (hget hraw) hread
  | blank hraw hread hkey => exact .blank (hget hraw) hread hkey
  | repeated hrow hkept hlt hearlier hkey =>
    exact .repeated (hrow.concat raw) (List.mem_append_left _ hkept) hlt (hearlier.concat raw) hkey

/-- An issue names a key exactly if the raw row converts to a row with it. -/
theorem LeavesOut.id_eq_some_iff {name : String} {issue : RowIssue}
    (h : t.LeavesOut name naming raws kept issue) (key : String) : issue.id = some key ↔
      ∃ row, t.ConvertsAt naming raws issue.position row ∧ t.key row = key := by
  cases h with
  | unreadable hraw hread =>
    refine iff_of_false (by simp) ?_
    rintro ⟨row, ⟨raw', hraw', hread', -⟩, -⟩
    obtain rfl := Option.some.inj (hraw.symm.trans hraw')
    cases hread.symm.trans hread'
  | blank hraw hread hkey =>
    refine iff_of_false (by simp) ?_
    rintro ⟨row, ⟨raw', hraw', hread', hvalid⟩, -⟩
    obtain rfl := Option.some.inj (hraw.symm.trans hraw')
    obtain rfl := Except.ok.inj (hread.symm.trans hread')
    cases hkey.symm.trans hvalid
  | repeated hrow _ _ _ _ =>
    constructor
    · intro h
      exact ⟨_, hrow, Option.some.inj h⟩
    · rintro ⟨row', hrow', rfl⟩
      rw [hrow.unique hrow']

end TableType

namespace Table

variable {t : TableType} {table next : Table t} {name : String} {naming : Naming}
  {raws : List RawRow} {raw : RawRow} {kept : List Nat} {issues : List RowIssue}
  {issue : RowIssue}

/-! ### Tables and issues -/

/-- A table and issues are what raw rows give: the rows are those that the kept raw rows convert
to, in order, and every other raw row has an issue, in order. -/
structure Ingests (name : String) (naming : Naming) (raws : List RawRow) (kept : List Nat)
    (table : Table t) (issues : List RowIssue) : Prop where
  name_eq : table.name = name
  indexed : table.Indexed
  keeps : t.Keeps naming raws kept
  rows : List.Forall₂ (t.ConvertsAt naming raws) kept table.rows.toList
  leavesOut : ∀ issue ∈ issues, t.LeavesOut name naming raws kept issue
  increasing : (issues.map RowIssue.position).Pairwise (· < ·)
  mem_positions : ∀ i, i ∈ issues.map RowIssue.position ↔ i < raws.length ∧ i ∉ kept

theorem ingests_empty (t : TableType) (name : String) (naming : Naming) :
    Ingests name naming [] [] (empty t name) [] where
  name_eq := rfl
  indexed := indexed_empty t name
  keeps := ⟨.nil, fun _ => iff_of_false List.not_mem_nil fun ⟨_, hrow, _⟩ =>
    Nat.not_lt_zero _ hrow.lt_length⟩
  rows := .nil
  leavesOut _ h := absurd h List.not_mem_nil
  increasing := .nil
  mem_positions _ := iff_of_false List.not_mem_nil fun h => Nat.not_lt_zero _ h.1

/-- The keys of the table are those of the rows that are kept. -/
theorem Ingests.mem_keys_iff (h : Ingests name naming raws kept table issues) {key : String} :
    key ∈ table.keys ↔ ∃ j ∈ kept, ∃ row, t.ConvertsAt naming raws j row ∧ t.key row = key := by
  rw [keys, List.mem_map]
  constructor
  · rintro ⟨row, hmem, rfl⟩
    obtain ⟨j, hj, hrow⟩ := exists_of_mem_forall₂ h.rows hmem
    exact ⟨j, hj, row, hrow, rfl⟩
  · rintro ⟨j, hj, row, hrow, rfl⟩
    obtain ⟨row', hmem, hrow'⟩ := exists_of_mem_forall₂ h.rows.flip hj
    exact ⟨row', hmem, by rw [hrow.unique hrow']⟩

theorem Ingests.newAt_iff (h : Ingests name naming raws kept table issues) {row : t.Row} :
    t.NewAt naming raws kept raws.length row ↔ t.key row ∉ table.keys := by
  rw [h.mem_keys_iff]
  constructor
  · rintro hnew ⟨j, hj, earlier, hearlier, hkey⟩
    exact hnew j hj (h.keeps.lt_length hj) earlier hearlier hkey
  · intro hnone j hj _ earlier hearlier hkey
    exact hnone ⟨j, hj, earlier, hearlier, hkey⟩

/-- A row that is not added has the key of another one. -/
theorem Indexed.push_eq_error (h : table.Indexed) {row : t.Row} {e : TableError}
    (hpush : table.push row = .error e) :
    t.key row ∈ table.keys ∧ e = .duplicateId table.name (t.key row) := by
  simp only [Table.push] at hpush
  split at hpush
  · next hcontains =>
    cases hpush
    exact ⟨(h.contains_index _).mp hcontains, rfl⟩
  · cases hpush

/-- Why a raw row is not accepted: it cannot be read, its key is blank, or the key is there. -/
theorem Indexed.accept_eq_error (h : table.Indexed) {position : Nat}
    (haccept : table.accept naming position raw = .error issue) :
    (∃ e, t.record.read naming raw = .error e ∧ issue = ⟨position, none, e.message⟩) ∨
      ∃ row, t.record.read naming raw = .ok row ∧
        (isValidKey (t.key row) = false ∧ issue = ⟨position, none, blankId⟩ ∨
          isValidKey (t.key row) = true ∧ t.key row ∈ table.keys ∧ issue =
            ⟨position, some (t.key row),
              (TableError.duplicateId table.name (t.key row)).message⟩) := by
  rw [accept] at haccept
  -- a raw row is refused for the first of three reasons: its cells, a blank key, a key that is
  -- taken
  split at haccept
  · next e hread =>
    cases haccept
    exact Or.inl ⟨e, hread, rfl⟩
  · next row hread =>
    refine Or.inr ⟨row, hread, ?_⟩
    split at haccept
    · next hblank =>
      cases haccept
      exact Or.inl ⟨by simpa using hblank, rfl⟩
    · next hvalid =>
      cases hpush : table.push row with
      | ok next =>
        rw [hpush] at haccept
        cases haccept
      | error e =>
        rw [hpush] at haccept
        cases haccept
        obtain ⟨hkey, rfl⟩ := h.push_eq_error hpush
        exact Or.inr ⟨by simpa using hvalid, hkey, rfl⟩

/-- A raw row that is accepted is kept. -/
theorem Ingests.accept_ok (h : Ingests name naming raws kept table issues)
    (haccept : table.accept naming raws.length raw = .ok next) :
    Ingests name naming (raws ++ [raw]) (kept ++ [raws.length]) next issues := by
  obtain ⟨row, hread, hvalid, hpush⟩ := accept_eq_ok haccept
  have hrow : t.ConvertsAt naming (raws ++ [raw]) raws.length row :=
    TableType.convertsAt_concat_length.mpr ⟨hread, hvalid⟩
  have hnew := h.newAt_iff.mpr (h.indexed.push_eq_ok_iff.mp hpush).1
  refine ⟨(name_push hpush).trans h.name_eq, h.indexed.push hpush, h.keeps.concat hrow hnew, ?_,
    fun issue hissue => (h.leavesOut issue hissue).concat raw, h.increasing, fun i => ?_⟩
  · rw [rows_push hpush, Array.toList_push]
    exact List.rel_append (h.rows.imp fun _ _ hconverts => hconverts.concat raw)
      (.cons hrow .nil)
  · rw [h.mem_positions, List.length_append, List.length_singleton, List.mem_append,
      List.mem_singleton]
    -- a position kept is below the new one, so it is no issue now either
    by_cases hi : i ∈ kept
    · simp [hi]
    · simp only [hi, not_false_eq_true, and_true, false_or]
      omega

/-- A raw row that is not accepted is left out. -/
theorem Ingests.accept_error (h : Ingests name naming raws kept table issues)
    (haccept : table.accept naming raws.length raw = .error issue) :
    Ingests name naming (raws ++ [raw]) kept table (issues ++ [issue]) := by
  have hget : (raws ++ [raw])[raws.length]? = some raw := List.getElem?_concat_length
  -- the reason is one, it is about the last position, and the row there is not new
  obtain ⟨hreason, hposition, hnone⟩ : t.LeavesOut name naming (raws ++ [raw]) kept issue ∧
      issue.position = raws.length ∧
        ∀ row, t.ConvertsAt naming (raws ++ [raw]) raws.length row →
          ¬ t.NewAt naming raws kept raws.length row := by
    simp only [TableType.convertsAt_concat_length, h.newAt_iff]
    rcases h.indexed.accept_eq_error haccept with
      ⟨e, hread, rfl⟩ | ⟨row, hread, ⟨hblank, rfl⟩ | ⟨hvalid, hkey, rfl⟩⟩
    · refine ⟨.unreadable hget hread, rfl, ?_⟩
      rintro row ⟨hrow, -⟩
      cases hread.symm.trans hrow
    · refine ⟨.blank hget hread hblank, rfl, ?_⟩
      rintro row' ⟨hrow, hvalid⟩
      obtain rfl := Except.ok.inj (hread.symm.trans hrow)
      cases hblank.symm.trans hvalid
    · obtain ⟨j, hj, earlier, hearlier, hsame⟩ := h.mem_keys_iff.mp hkey
      rw [h.name_eq]
      refine ⟨.repeated (TableType.convertsAt_concat_length.mpr ⟨hread, hvalid⟩) hj
        (h.keeps.lt_length hj) (hearlier.concat raw) hsame, rfl, ?_⟩
      rintro row' ⟨hrow, -⟩
      obtain rfl := Except.ok.inj (hread.symm.trans hrow)
      exact not_not_intro hkey
  refine ⟨h.name_eq, h.indexed, h.keeps.concat_same hnone,
    h.rows.imp fun _ _ hconverts => hconverts.concat raw, ?_, ?_, fun i => ?_⟩
  · intro other hother
    rcases List.mem_append.mp hother with hother | hother
    · have hconcat : t.LeavesOut name naming (raws ++ [raw]) (kept ++ []) other :=
        (h.leavesOut other hother).concat raw
      rwa [List.append_nil] at hconcat
    · exact List.mem_singleton.mp hother ▸ hreason
  · rw [List.map_append, List.map_singleton, hposition]
    exact List.pairwise_append.mpr ⟨h.increasing, List.pairwise_singleton _ _,
      fun i hi j hj => List.mem_singleton.mp hj ▸ ((h.mem_positions i).mp hi).1⟩
  · have hlast : raws.length ∉ kept := fun hmem => Nat.lt_irrefl _ (h.keeps.lt_length hmem)
    rw [List.map_append, List.map_singleton, hposition, List.mem_append, List.mem_singleton,
      h.mem_positions, List.length_append, List.length_singleton]
    constructor
    · rintro (⟨hi, hmem⟩ | rfl)
      · exact ⟨Nat.lt_succ_of_lt hi, hmem⟩
      · exact ⟨Nat.lt_succ_self _, hlast⟩
    · rintro ⟨hi, hmem⟩
      exact (Nat.lt_succ_iff_lt_or_eq.mp hi).imp_left fun hlt => ⟨hlt, hmem⟩

/-- What raw rows give, more raw rows behind them go on to give. -/
theorem Ingests.acceptFrom (h : Ingests name naming raws kept table issues)
    (rest : List RawRow) : ∃ kept', Ingests name naming (raws ++ rest) kept'
      (table.acceptFrom naming raws.length rest).1
      (issues ++ (table.acceptFrom naming raws.length rest).2) := by
  -- the next position is the number of raw rows that were read before
  induction rest generalizing raws kept table issues with
  | nil =>
    rw [Table.acceptFrom, List.append_nil, List.append_nil]
    exact ⟨kept, h⟩
  | cons raw rest ih =>
    have hlength : (raws ++ [raw]).length = raws.length + 1 := by simp
    rw [Table.acceptFrom, List.append_cons]
    split
    · next next haccept =>
      obtain ⟨kept', hkept⟩ := ih (h.accept_ok haccept)
      rw [hlength] at hkept
      exact ⟨kept', hkept⟩
    · next issue haccept =>
      obtain ⟨kept', hkept⟩ := ih (h.accept_error haccept)
      rw [hlength] at hkept
      exact ⟨kept', by simpa using hkept⟩

/-- Reading raw rows gives their table and issues. -/
theorem ingests_ingest (t : TableType) (name : String) (naming : Naming) (raws : List RawRow) :
    ∃ kept, Ingests name naming raws kept (ingest t name naming raws).1
      (ingest t name naming raws).2 := by
  obtain ⟨kept, hkept⟩ := (ingests_empty t name naming).acceptFrom raws
  exact ⟨kept, hkept⟩

/-- Every raw row is kept or left out, and only once. -/
theorem Ingests.perm_range (h : Ingests name naming raws kept table issues) :
    (kept ++ issues.map RowIssue.position).Perm (List.range raws.length) := by
  have hnodup : (kept ++ issues.map RowIssue.position).Nodup := by
    refine List.nodup_append.mpr ⟨h.keeps.increasing.imp Nat.ne_of_lt,
      h.increasing.imp Nat.ne_of_lt, ?_⟩
    rintro i hi _ hj rfl
    exact ((h.mem_positions i).mp hj).2 hi
  refine (List.perm_ext_iff_of_nodup hnodup List.nodup_range).mpr fun i => ?_
  rw [List.mem_append, h.mem_positions, List.mem_range]
  by_cases hi : i ∈ kept
  · simp [hi, h.keeps.lt_length hi]
  · simp [hi]

/-- The rows of a table of raw rows are what those raw rows convert to, in order, that convert to a
row with a key that is not blank and that no row kept before has; this determines which they are.
Every other raw row has one issue, in the order of their positions. The issue says why the raw row
is left out, and it names the key exactly if the raw row converts to a row with a key that is not
blank. The keys of the table are distinct, and the index gives the position of each. -/
theorem ingest_outcome (t : TableType) (name : String) (naming : Naming) (raws : List RawRow) :
    let table := (ingest t name naming raws).1
    let issues := (ingest t name naming raws).2
    ∃ kept, t.Keeps naming raws kept ∧ (∀ kept', t.Keeps naming raws kept' → kept' = kept) ∧
      List.Forall₂ (t.ConvertsAt naming raws) kept table.rows.toList ∧
      (issues.map RowIssue.position).Pairwise (· < ·) ∧
      (∀ i, i ∈ issues.map RowIssue.position ↔ i < raws.length ∧ i ∉ kept) ∧
      (∀ issue ∈ issues, t.LeavesOut name naming raws kept issue ∧
        ∀ key, issue.id = some key ↔
          ∃ row, t.ConvertsAt naming raws issue.position row ∧ t.key row = key) ∧
      table.keys.Nodup ∧ ∀ key i, table.position? key = some i ↔ table.keys[i]? = some key := by
  obtain ⟨kept, h⟩ := ingests_ingest t name naming raws
  refine ⟨kept, h.keeps, fun kept' hkept' => hkept'.unique h.keeps, h.rows, h.increasing,
    h.mem_positions, fun issue hissue => ?_, h.indexed.nodup, fun key i => ?_⟩
  · have hreason := h.leavesOut issue hissue
    exact ⟨hreason, hreason.id_eq_some_iff⟩
  · rw [position?, h.indexed.index_eq, getElem?_positionsFrom_iff h.indexed.nodup]

end Table

end TypedSheets
