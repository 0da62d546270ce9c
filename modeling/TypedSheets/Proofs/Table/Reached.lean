import TypedSheets.Proofs.Bake.Outcome
import TypedSheets.Proofs.Link.InPlace
import TypedSheets.Proofs.Table.Binary
import TypedSheets.Proofs.Table.Ingest
import TypedSheets.Proofs.Table.Replacing

/-!
# The index of a table goes with its rows

The index of a table is written when rows are added, and not again when the rows are linked in
place; the keys are computed from the rows. They go together as long as no key changes when
references are resolved. Then every table has distinct keys with their positions, however it was
made, and a row that is refused leaves it as it was.

## Main definitions

* `Table.Reached` — tables that were made, filled and linked in any order
* `Table.Keyed` — keys are distinct and have their positions, and refused rows change nothing
* `TableType.FirstRepeat` — the first row whose key one of the rows before it has

## Main results

* `Table.Indexed.pushEach_eq_ok`, `Table.Indexed.pushEach_eq_error` — adding rows
* `DataTable.ofRows_eq_error` — data tables refuse the same rows
* `Table.exists_ofRows_iff`, `DataTable.exists_ofRows_iff` — which rows make a table
* `Table.keyed_of_reached` — what holds of every table, and of every list of rows
-/

namespace TypedSheets

/-! ### Rows one after the other -/

/-- The first of some rows whose key one of the rows before it has. -/
def TableType.FirstRepeat (t : TableType) (rows : List t.Row) (row : t.Row) : Prop :=
  ∃ before after, rows = before ++ row :: after ∧ (before.map t.key).Nodup ∧
    t.key row ∈ before.map t.key

theorem TableType.exists_firstRepeat {t : TableType} {rows : List t.Row}
    (h : ¬ (rows.map t.key).Nodup) : ∃ row, t.FirstRepeat rows row := by
  -- from the end: the last row repeats a key, or a row before it already does
  induction rows using List.reverseRecOn with
  | nil => exact absurd List.nodup_nil h
  | append_singleton rows last ih =>
    by_cases hnodup : (rows.map t.key).Nodup
    · refine ⟨last, rows, [], rfl, hnodup, ?_⟩
      by_contra hnew
      refine h ?_
      rw [List.map_append, List.map_singleton, ← List.concat_eq_append, List.nodup_concat]
      exact ⟨hnew, hnodup⟩
    · obtain ⟨row, before, after, rfl, hbefore⟩ := ih hnodup
      exact ⟨row, before, after ++ [last], by simp, hbefore⟩

namespace Table

variable {t : TableType} {table next : Table t} {name : String} {rows before after : List t.Row}
  {row : t.Row}

theorem pushEach_append (table : Table t) (xs ys : List t.Row) :
    table.pushEach (xs ++ ys) = (table.pushEach xs).bind fun next => next.pushEach ys := by
  induction xs generalizing table with
  | nil => rfl
  | cons x rest ih =>
    rw [List.cons_append, pushEach, pushEach]
    cases table.push x with
    | error e => rfl
    | ok next => exact ih next

theorem rows_pushEach (h : table.pushEach rows = .ok next) :
    next.rows.toList = table.rows.toList ++ rows := by
  induction rows generalizing table with
  | nil =>
    cases h
    exact (List.append_nil _).symm
  | cons row rest ih =>
    rw [pushEach] at h
    split at h
    · next pushed hfirst => rw [ih h, rows_push hfirst, Array.toList_push, List.append_assoc]; rfl
    · cases h

/-- Rows whose keys are distinct and new are all added. -/
theorem Indexed.pushEach_eq_ok (h : table.Indexed)
    (hnodup : (table.keys ++ rows.map t.key).Nodup) : ∃ next, table.pushEach rows = .ok next ∧
      next.Indexed ∧ next.name = table.name ∧ next.keys = table.keys ++ rows.map t.key := by
  induction rows generalizing table with
  | nil => exact ⟨table, rfl, h, rfl, (List.append_nil _).symm⟩
  | cons row rest ih =>
    rw [List.map_cons] at hnodup
    have hnew : t.key row ∉ table.keys := fun hmem =>
      (List.nodup_cons.mp (List.perm_middle.nodup_iff.mp hnodup)).1 (List.mem_append_left _ hmem)
    have hpush := h.push_eq_ok_iff.mpr ⟨hnew, rfl⟩
    obtain ⟨next, hnext, hindexed, hname, hkeys⟩ := ih (h.push hpush)
      (by rwa [keys_push hpush, List.append_assoc])
    refine ⟨next, ?_, hindexed, hname, ?_⟩
    · rw [pushEach, hpush]
      exact hnext
    · rw [hkeys, keys_push hpush, List.append_assoc, List.map_cons]
      rfl

/-- Adding rows ends at the first one whose key is there already. -/
theorem Indexed.pushEach_eq_error (h : table.Indexed)
    (hnodup : (table.keys ++ before.map t.key).Nodup)
    (hmem : t.key row ∈ table.keys ++ before.map t.key) :
    table.pushEach (before ++ row :: after) = .error (.duplicateId table.name (t.key row)) := by
  obtain ⟨next, hnext, hindexed, hname, hkeys⟩ := h.pushEach_eq_ok hnodup
  have hcontains := (hindexed.contains_index (t.key row)).mpr (hkeys ▸ hmem)
  rw [pushEach_append, hnext, Except.bind, pushEach, Table.push, if_pos hcontains, hname]

theorem Indexed.of_pushEach (h : table.Indexed) (hpush : table.pushEach rows = .ok next) :
    next.Indexed := by
  induction rows generalizing table with
  | nil =>
    cases hpush
    exact h
  | cons row rest ih =>
    rw [pushEach] at hpush
    split at hpush
    · next pushed hfirst => exact ih (h.push hfirst) hpush
    · cases hpush

theorem ofRows_eq_ok (name : String) (hnodup : (rows.map t.key).Nodup) :
    ∃ table, ofRows t name rows = .ok table := by
  obtain ⟨table, htable, -⟩ := (indexed_empty t name).pushEach_eq_ok hnodup
  exact ⟨table, htable⟩

theorem ofRows_eq_error (name : String) (h : t.FirstRepeat rows row) :
    ofRows t name rows = .error (.duplicateId name (t.key row)) := by
  obtain ⟨before, after, rfl, hnodup, hmem⟩ := h
  exact (indexed_empty t name).pushEach_eq_error hnodup hmem

/-- Rows make a table if and only if their keys are distinct. -/
theorem exists_ofRows_iff (name : String) :
    (∃ table, ofRows t name rows = .ok table) ↔ (rows.map t.key).Nodup := by
  refine ⟨?_, ofRows_eq_ok name⟩
  rintro ⟨table, htable⟩
  by_contra h
  obtain ⟨row, hrow⟩ := TableType.exists_firstRepeat h
  cases htable.symm.trans (ofRows_eq_error name hrow)

end Table

namespace DataTable

variable {t : TableType} {rows before after : List t.Row} {row : t.Row}

theorem indexFrom_eq_error {name : String} {index : Std.HashMap String Nat} {position : Nat}
    (hnodup : (before.map t.key).Nodup) (hnew : ∀ key ∈ before.map t.key, key ∉ index)
    (hmem : t.key row ∈ before.map t.key ∨ t.key row ∈ index) :
    indexFrom name index position (before ++ row :: after) =
      .error (.duplicateId name (t.key row)) := by
  induction before generalizing index position with
  | nil => exact if_pos (hmem.resolve_left List.not_mem_nil)
  | cons first rest ih =>
    rw [List.map_cons] at hnodup hnew hmem
    obtain ⟨hfirst, hrest⟩ := List.nodup_cons.mp hnodup
    obtain ⟨hrow, hothers⟩ := List.forall_mem_cons.mp hnew
    rw [List.cons_append, indexFrom, if_neg (by simpa using hrow)]
    -- the first key goes from the rows before into the index
    refine ih hrest (fun key hkey => ?_) ?_
    · rw [Std.HashMap.mem_insert, not_or, beq_iff_eq]
      exact ⟨fun heq => hfirst (heq ▸ hkey), hothers key hkey⟩
    · rw [Std.HashMap.mem_insert, beq_iff_eq]
      rcases hmem with hmem | hmem
      · rcases List.mem_cons.mp hmem with heq | hmem
        · exact Or.inr (Or.inl heq.symm)
        · exact Or.inl hmem
      · exact Or.inr (Or.inr hmem)

/-- Rows of which one repeats the key of another make no data table, for the first that does. -/
theorem ofRows_eq_error (name : String) (h : t.FirstRepeat rows row) :
    ofRows t name rows.toArray = .error (.duplicateId name (t.key row)) := by
  obtain ⟨before, after, rfl, hnodup, hmem⟩ := h
  rw [ofRows, List.toList_toArray, indexFrom_eq_error hnodup
    (fun _ _ => Std.HashMap.not_mem_empty) (Or.inl hmem)]

/-- Rows make a data table if and only if their keys are distinct. -/
theorem exists_ofRows_iff (name : String) :
    (∃ data, ofRows t name rows.toArray = .ok data) ↔ (rows.map t.key).Nodup := by
  constructor
  · rintro ⟨data, hdata⟩
    by_contra h
    obtain ⟨row, hrow⟩ := TableType.exists_firstRepeat h
    cases hdata.symm.trans (ofRows_eq_error name hrow)
  · intro h
    have hrows : (rows.toArray.toList.map t.key).Nodup := by rwa [List.toList_toArray]
    obtain ⟨data, hdata, -⟩ := exists_ofRows_eq_ok name hrows
    exact ⟨data, hdata⟩

end DataTable

/-! ### Tables of any origin -/

namespace Table

variable {t : TableType} {table : Table t}

/-- The table after an attempt to add a row: a row that is refused leaves it as it was. -/
def attempt (table : Table t) (row : t.Row) : Table t :=
  match table.push row with
  | .ok next => next
  | .error _ => table

/-- A table that was made of nothing, of rows, of raw rows or of kept rows, and then filled and
linked in any order. -/
inductive Reached : Table t → Prop
  | empty (name : String) : Reached (empty t name)
  | ofRows {name : String} {rows : List t.Row} {table : Table t}
      (h : ofRows t name rows = .ok table) : Reached table
  | ingest (name : String) (naming : Naming) (raws : List RawRow) :
      Reached (ingest t name naming raws).1
  | restore {name : String} {kept : List (String × List UInt8)} {table : Table t}
      (h : restore t name kept = .ok table) : Reached table
  | attempt {table : Table t} (h : Reached table) (row : t.Row) : Reached (table.attempt row)
  | link {table : Table t} (h : Reached table) (l : Linker) : Reached (mapReferences l table).1

theorem Indexed.attempt (h : table.Indexed) (row : t.Row) : (table.attempt row).Indexed := by
  rw [Table.attempt]
  split
  · next next hpush => exact h.push hpush
  · exact h

theorem Reached.indexed (hid : t.ResolutionBlind) (h : table.Reached) : table.Indexed := by
  induction h with
  | empty name => exact indexed_empty t name
  | @ofRows name rows table h => exact (indexed_empty t name).of_pushEach h
  | ingest name naming raws => exact indexed_ingest t name naming raws
  | @restore name kept table h => exact ((indexed_empty t name).of_restoreFrom h).1
  | attempt _ row ih => exact ih.attempt row
  | @link table _ l ih =>
    exact ih.mapReferences_of_keys l (keys_mapReferences_of_key l (hid.key_relinked l) table)

/-- The keys of a table are distinct, and exactly these have positions, at which they stand. A row
is refused if its key is there, and then nothing has changed. -/
structure Keyed (table : Table t) : Prop where
  nodup : table.keys.Nodup
  position?_iff : ∀ key i, table.position? key = some i ↔ table.keys[i]? = some key
  refused : ∀ row e, table.push row = .error e → t.key row ∈ table.keys ∧
    e = .duplicateId table.name (t.key row) ∧ table.attempt row = table
  added : ∀ row next, table.push row = .ok next → t.key row ∉ table.keys ∧
    table.attempt row = next ∧ next.keys = table.keys ++ [t.key row]

theorem Indexed.keyed (h : table.Indexed) : table.Keyed where
  nodup := h.nodup
  position?_iff _ _ := h.position?_eq_some_iff
  refused row e hpush := by
    obtain ⟨hmem, he⟩ := h.push_eq_error hpush
    exact ⟨hmem, he, by rw [Table.attempt, hpush]⟩
  added row next hpush :=
    ⟨(h.push_eq_ok_iff.mp hpush).1, by rw [Table.attempt, hpush], keys_push hpush⟩

/-- If ids stay when references are resolved in another way, then in every table that was made,
filled and linked in any order the keys are distinct and have their positions, and a row that is
refused changes nothing. A table and a data table of the same rows are both made if and only if the
keys of the rows are distinct. Otherwise both are refused with one error, that of the first row
whose key a row before it has. -/
theorem keyed_of_reached (t : TableType) :
    (t.ResolutionBlind → ∀ table : Table t, table.Reached → table.Keyed) ∧
    ∀ name (rows : List t.Row),
      ((∃ table, Table.ofRows t name rows = .ok table) ↔ (rows.map t.key).Nodup) ∧
      ((∃ data, DataTable.ofRows t name rows.toArray = .ok data) ↔ (rows.map t.key).Nodup) ∧
      (¬ (rows.map t.key).Nodup → ∃ row, t.FirstRepeat rows row) ∧
      ∀ row, t.FirstRepeat rows row →
        Table.ofRows t name rows = .error (.duplicateId name (t.key row)) ∧
        DataTable.ofRows t name rows.toArray = .error (.duplicateId name (t.key row)) := by
  refine ⟨fun hid table h => (h.indexed hid).keyed, fun name rows => ?_⟩
  refine ⟨exists_ofRows_iff name, DataTable.exists_ofRows_iff name, TableType.exists_firstRepeat,
    fun row h => ⟨?_, ?_⟩⟩
  · exact ofRows_eq_error name h
  · exact DataTable.ofRows_eq_error name h

end Table

namespace Game

/-- The first quest. -/
def firstQuest : quest.Row := questRows.head (List.cons_ne_nil _ _)

theorem firstRepeat_firstQuest : quest.FirstRepeat (questRows ++ [firstQuest]) firstQuest := by
  refine ⟨questRows, [], rfl, nodup_questRows, ?_⟩
  exact List.mem_map_of_mem (List.head_mem _)

end Game

/-- The table of two quests is made, and is keyed after the first one was refused and the references
were linked. With the first one again at their end they make no table. -/
theorem Table.keyed_of_reached_quests : ∃ table : Table Game.quest,
    Table.ofRows Game.quest "Quests" Game.questRows = .ok table ∧
      (∀ l, (mapReferences l (table.attempt Game.firstQuest)).1.Keyed) ∧
      Table.ofRows Game.quest "Quests" (Game.questRows ++ [Game.firstQuest]) =
        .error (.duplicateId "Quests" (Game.quest.key Game.firstQuest)) := by
  obtain ⟨hkeyed, hofRows⟩ := keyed_of_reached Game.quest
  obtain ⟨table, htable⟩ := (hofRows "Quests" Game.questRows).1.mpr Game.nodup_questRows
  refine ⟨table, htable, fun l => ?_, ?_⟩
  · exact hkeyed Game.resolutionBlind_quest _ (.link (.attempt (.ofRows htable) _) l)
  · exact ((hofRows "Quests" _).2.2.2 _ Game.firstRepeat_firstQuest).1

namespace Game

/-- Posts with a pointer, whose ids are computed by hand: the mark of the pointer. -/
def post : TableType where
  record := ⟨⟨"Post", none, false, true, ["get_id"]⟩, .ofList [dataMember "pointer" pointer.cell]⟩
  id := .bool
  getId row := row.1.2.1

/-- A post at a hero. -/
def postAt (key : String) (marked : Bool) : post.Row := (((⟨key, none⟩ : SheetRef), marked, ()), ())

theorem resolutionFree_post : post.ResolutionFree := by
  intro row row' h
  have hmarks := congrArg (fun (row : post.Row) => row.1.2.1) h
  exact hmarks

end Game

/-- It is not enough that ids do not read what references are resolved to. The ids of posts are
computed from a mark that no cell shows, and linking a pointer resets it: then two rows have one
key, and the index still has that of before. -/
theorem Table.not_keyed_linked_posts : ∃ table : Table Game.post,
    let linked := (mapReferences ⟨fun _ _ => RowKey.of? 0 0, .none⟩ table).1
    Table.ofRows Game.post "Posts" [Game.postAt "rook" true, Game.postAt "knight" false] =
        .ok table ∧
      Game.post.ResolutionFree ∧ linked.Reached ∧ table.keys = ["true", "false"] ∧
      linked.keys = ["false", "false"] ∧ linked.position? "true" = some 0 ∧ ¬ linked.Keyed := by
  have hdistinct : ([Game.postAt "rook" true, Game.postAt "knight" false].map
      Game.post.key).Nodup := by decide
  obtain ⟨table, htable⟩ := Table.ofRows_eq_ok "Posts" hdistinct
  have hrows : table.rows.toList = [Game.postAt "rook" true, Game.postAt "knight" false] :=
    Table.rows_pushEach htable
  have hkeys : table.keys = ["true", "false"] := by
    rw [keys, hrows]
    rfl
  have hlinked : (mapReferences ⟨fun _ _ => RowKey.of? 0 0, .none⟩ table).1.keys =
      ["false", "false"] := by
    rw [keys, rows_mapReferences, hrows]
    decide +kernel
  have hindexed : table.Indexed := (indexed_empty Game.post "Posts").of_pushEach htable
  have hposition : table.position? "true" = some 0 := by
    rw [hindexed.position?_eq_some_iff, hkeys]
    rfl
  refine ⟨table, htable, Game.resolutionFree_post, .link (.ofRows htable) _, hkeys, hlinked,
    hposition, fun h => ?_⟩
  have hnodup := h.nodup
  rw [hlinked] at hnodup
  exact absurd hnodup (by decide)

end TypedSheets
