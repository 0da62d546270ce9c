import TypedSheets.Cell.Print
import TypedSheets.Game.Stages
import TypedSheets.Proofs.Cell.Origin
import TypedSheets.Proofs.Link.References

/-!
# Reading what is printed

A value that was read from anything, under any naming, reads back from what it prints to under any
other naming. References may be replaced in between: the value that is read then is the typed one
with the same references replaced.

## Main results

* `CellType.isFilled_print` — what was read from something does not print as nothing
* `CellType.read_print_mapRefs`, `Members.read_print_mapRefs` — reading what is printed, references
  replaced
* `reading_undoes_printing` — reading what is printed, for cell types and record types
-/

namespace TypedSheets

/-! ### Rows of cells -/

namespace RawRow

theorem get?_insert (row : RawRow) (name other : String) (v : Value) :
    (row.insert name v).get? other = if other = name then some v else row.get? other := by
  simp only [get?, insert, Entries.get?_insert, beq_iff_eq, compareText_eq_iff]

theorem cell_insert (row : RawRow) (name other : String) (v : Value) :
    (row.insert name v).cell other = if other = name then v else row.cell other := by
  rw [cell, get?_insert]
  split <;> rfl

end RawRow

/-- The value in the cell of a member; a member without a column has none. -/
def MemberType.printCell : (t : MemberType) → Naming → t.El → Value
  | .cell t, n => t.print n
  | .rows form head ms via, n =>
    printRows via (form.toDatum fun x => .list (ms.toDatum x)) fun xs =>
      .list ((form.items xs).map fun x => .record (ms.print (head.effectiveNaming n) x .empty))
  | .converted c, _ => c.print
  | .ignored _, _ => fun _ => .null

theorem MemberType.print_eq (t : MemberType) (name : String) (n : Naming) (x : t.El)
    (row : RawRow) :
    t.print name n x row =
      if t.isData then row.insert (n.wireName name) (t.printCell n x) else row := by
  cases t <;> rfl

/-- Members print to their own columns only. -/
theorem Members.get?_print_of_ne (ms : Members) (n : Naming) {column : String}
    (h : ∀ name ∈ ms.dataNames, n.wireName name ≠ column) (x : ms.El) (row : RawRow) :
    (ms.print n x row).get? column = row.get? column := by
  cases ms with
  | nil => rfl
  | cons info t rest =>
    rw [Members.dataNames] at h
    rw [Members.print]
    -- a member without data writes no cell
    cases ht : t.isData with
    | false =>
      rw [ht] at h
      rw [rest.get?_print_of_ne n h, MemberType.print_eq, ht]
      rfl
    | true =>
      rw [ht] at h
      rw [rest.get?_print_of_ne n fun name hname => h name (List.mem_cons_of_mem _ hname),
        MemberType.print_eq, ht, if_pos rfl, RawRow.get?_insert,
        if_neg (h info.name List.mem_cons_self).symm]

theorem Members.cell_print_of_ne (ms : Members) (n : Naming) {column : String}
    (h : ∀ name ∈ ms.dataNames, n.wireName name ≠ column) (x : ms.El) (row : RawRow) :
    (ms.print n x row).cell column = row.cell column := by
  rw [RawRow.cell, RawRow.cell, ms.get?_print_of_ne n h]

/-! ### Something is not printed as nothing -/

/-- What is read from something does not print as null or as a blank text. -/
theorem CellType.isFilled_print (n' : Naming) : (t : CellType) → {n : Naming} → {v : Value} →
    {x : t.El} → v.isFilled = true → t.read n v = .ok x → (t.print n' x).isFilled = true
  | .scalar _, _, _, _, hv, h => ScalarType.isFilled_print hv h
  | .option t, n, v, x, hv, h => by
    cases x with
    | none =>
      -- only null and blank texts are read as nothing
      have hsome : readOption (t.read n) v = .ok none := h
      rw [readOption_of_isFilled (t.read n) hv] at hsome
      cases hr : t.read n v <;> rw [hr] at hsome <;> cases hsome
    | some y => exact t.isFilled_print n' hv (isFilled_of_readOption h).2
  | .sequence _ _, _, _, _, _, _ => rfl
  | .array _ _, _, _, _, _, _ => rfl
  | .set _ _, _, _, _, _, _ => rfl
  | .map _ _ _ _, _, _, _, _, _ => rfl
  | .sheetRef _, _, _, _, _, _ => rfl
  | .assetRef, _, _, _, _, _ => rfl
  | .record _ _, _, _, _, _, _ => rfl
  | .any, _, _, _, hv, h => by
    cases h
    exact hv

/-! ### Collections -/

section Collections

variable {α β γ : Type} {read : Value → Except CellError α} {readKey : Value → Except CellError α}
  {readValue : Value → Except CellError β} (f : RefMap)

theorem Value.mapRefs_list_map (g : γ → Value) (ys : List γ) :
    (Value.list (ys.map g)).mapRefs f = .list (ys.map fun y => (g y).mapRefs f) := by
  rw [Value.mapRefs, Value.mapRefsItems_eq_map, List.map_map]
  rfl

theorem Value.mapRefs_map_map (gk gv : γ → Value) (ys : List γ) :
    (Value.map (ys.map fun y => (gk y, gv y))).mapRefs f =
      .map (ys.map fun y => ((gk y).mapRefs f, (gv y).mapRefs f)) := by
  rw [Value.mapRefs, Value.mapRefsEntries_eq_map, List.map_map]
  rfl

variable {f} {g : γ → Value} {h : γ → α} {ys : List γ}

theorem readSequence_mapRefs (expected : String)
    (hread : ∀ y ∈ ys, read ((g y).mapRefs f) = .ok (h y)) :
    readSequence expected read ((Value.list (ys.map g)).mapRefs f) = .ok (ys.map h) := by
  rw [Value.mapRefs_list_map]
  exact readSequence_map expected hread

theorem readArray_mapRefs {length : Nat} (hlength : ys.length = length)
    (hread : ∀ y ∈ ys, read ((g y).mapRefs f) = .ok (h y)) :
    readArray read length ((Value.list (ys.map g)).mapRefs f) =
      .ok ⟨ys.map h, by simp [hlength]⟩ := by
  rw [Value.mapRefs_list_map]
  exact readArray_map hlength hread

theorem readSet_mapRefs {cmp : α → α → Ordering}
    (hread : ∀ y ∈ ys, read ((g y).mapRefs f) = .ok (h y)) :
    readSet cmp read ((Value.list (ys.map g)).mapRefs f) = .ok (keysOfList cmp (ys.map h)) := by
  rw [Value.mapRefs_list_map]
  exact readSet_map hread

theorem readMap_mapRefs {cmp : α → α → Ordering} {gk gv : γ → Value} {hk : γ → α} {hv : γ → β}
    (hread : ∀ y ∈ ys, readKey ((gk y).mapRefs f) = .ok (hk y) ∧
      readValue ((gv y).mapRefs f) = .ok (hv y)) :
    readMap cmp readKey readValue ((Value.map (ys.map fun y => (gk y, gv y))).mapRefs f) =
      .ok (Entries.ofList cmp (ys.map fun y => (hk y, hv y))) := by
  rw [Value.mapRefs_map_map]
  exact readMap_map hread

theorem RowsForm.read_mapRefs {form : RowsForm} {xs : form.Holder γ}
    (hread : ∀ y ∈ form.items xs, read ((g y).mapRefs f) = .ok (h y)) :
    form.read read ((Value.list ((form.items xs).map g)).mapRefs f) = .ok (form.map h xs) := by
  cases form with
  | list => exact readSequence_mapRefs "list" hread
  | boxedSlice => exact readSequence_mapRefs "list" hread
  | array length => exact readArray_mapRefs xs.property hread

theorem readOption_mapRefs {print : γ → Value} {y : γ} (hfilled : (print y).isFilled = true)
    (hread : read ((print y).mapRefs f) = .ok (h y)) :
    readOption read ((printOption print (some y)).mapRefs f) = .ok (some (h y)) := by
  rw [printOption, readOption_of_isFilled read (by rwa [Value.isFilled_mapRefs]), hread]
  rfl

end Collections

/-! ### Members without references -/

theorem ScalarType.mapRefs_print (f : RefMap) (s : ScalarType) (x : s.El) :
    (s.print x).mapRefs f = s.print x := by
  cases s with
  | int k =>
    change (printInt x.val).mapRefs f = printInt x.val
    rw [printInt]
    split <;> rfl
  | _ => rfl

theorem InputType.mapRefs_print (f : RefMap) : (i : InputType) → (x : i.El) →
    (i.print x).mapRefs f = i.print x
  | .scalar s, x => s.mapRefs_print f x
  | .option _, none => rfl
  | .option i, some y => i.mapRefs_print f y

/-! ### The round trip -/

mutual

/-- A value that was read prints to a value that reads as the same, with any references replaced
in between. -/
theorem CellType.read_print_mapRefs (f : RefMap) : (t : CellType) → (n' : Naming) → {n : Naming} →
    {v : Value} → {x : t.El} → t.Reverting → t.DistinctColumns → t.read n v = .ok x →
    t.read n' ((t.print n' x).mapRefs f) = .ok (t.mapRefs f x)
  -- one case a constructor: what holds parts reads back if each of its parts does
  | .scalar s, _, _, _, x, _, _, h =>
    (congrArg s.read (s.mapRefs_print f x)).trans (ScalarType.read_print h)
  | .option t, n', _, _, x, hr, hd, h => by
    cases x with
    | none => rfl
    | some y =>
      obtain ⟨hv, hy⟩ := isFilled_of_readOption h
      exact readOption_mapRefs (t.isFilled_print n' hv hy) (t.read_print_mapRefs f n' hr.2 hd.2 hy)
  | .sequence form t, n', _, _, _, hr, hd, h => readSequence_mapRefs form.word fun y hy => by
    obtain ⟨_, _, _, _, hread⟩ := exists_of_mem_readSequence h hy
    exact t.read_print_mapRefs f n' hr.2 hd.2 hread
  | .array t _, n', _, _, xs, hr, hd, h => readArray_mapRefs xs.property fun y hy => by
    obtain ⟨_, _, hread⟩ := exists_of_mem_readArray h hy
    exact t.read_print_mapRefs f n' hr.2 hd.2 hread
  | .set _ t, n', _, _, _, hr, hd, h => readSet_mapRefs fun y hy => by
    obtain ⟨_, _, _, _, hread⟩ := exists_of_mem_readSet h hy
    exact t.read_print_mapRefs f n' hr.2 hd.2 hread
  | .map _ _ k v, n', _, _, _, hr, hd, h => readMap_mapRefs fun e he => by
    obtain ⟨_, _, ⟨_, _, hkey⟩, _, _, hvalue⟩ := exists_of_mem_readMap h he
    exact ⟨k.read_print_mapRefs f n' hr.2.1 hd.2.1 hkey,
      v.read_print_mapRefs f n' hr.2.2 hd.2.2 hvalue⟩
  | .sheetRef target, _, _, _, r, _, _, _ => by
    change SheetRef.read target (.sheetRef ⟨target, f.row target r⟩) = _
    rw [SheetRef.read, if_pos (beq_self_eq_true target)]
    rfl
  | .assetRef, _, _, _, _, _, _, _ => rfl
  | .record head ms, n', _, _, _, hr, hd, h => by
    obtain ⟨_, _, hread⟩ := Value.partClosed_true.of_readRecord trivial h
    exact ms.read_print_mapRefs f (head.effectiveNaming n') hr.2 hd hread .empty
  | .any, _, _, _, _, _, _, _ => rfl

/-- The same for a member whose cell is in the row. -/
theorem MemberType.read_print_mapRefs (f : RefMap) : (t : MemberType) → (name : String) →
    (n' : Naming) → {n : Naming} → {row row' : RawRow} → {x : t.El} →
    t.All (fun _ => True) MemberType.Reverts →
    t.All CellType.HasDistinctColumns MemberType.HasDistinctColumns → t.read name n row = .ok x →
    (t.isData = true → row'.cell (n'.wireName name) = (t.printCell n' x).mapRefs f) →
    t.read name n' row' = .ok (t.mapRefs f x)
  | .cell t, _, n', _, _, _, _, hr, hd, h, hcell => by
    refine mapError_eq_ok_iff.mpr ?_
    rw [hcell rfl]
    exact t.read_print_mapRefs f n' hr.2 hd.2 (mapError_eq_ok_iff.mp h)
  | .rows form head ms none, _, n', _, _, _, _, hr, hd, h, hcell => by
    refine mapError_eq_ok_iff.mpr ?_
    rw [hcell rfl]
    refine RowsForm.read_mapRefs fun y hy => ?_
    obtain ⟨_, _, hread⟩ := form.exists_of_mem_read (mapError_eq_ok_iff.mp h) hy
    obtain ⟨_, _, hread⟩ := Value.partClosed_true.of_readRecord trivial hread
    exact ms.read_print_mapRefs f (head.effectiveNaming n') hr.2 hd hread .empty
  -- what a converter reads holds no references, so it is what it has written
  | .rows form _ ms (some c), _, n', _, _, _, xs, hr, _, h, hcell => by
    refine mapError_eq_ok_iff.mpr ?_
    rw [hcell rfl]
    obtain ⟨d, rfl⟩ := c.exists_of_read (mapError_eq_ok_iff.mp h)
    change c.read _ ((c.input.print _).mapRefs f) = _
    rw [c.input.mapRefs_print]
    exact hr.1 d
  | .converted c, _, n', _, _, _, y, hr, _, _, hcell => by
    refine mapError_eq_ok_iff.mpr ?_
    rw [hcell rfl]
    change c.read ((c.input.print (c.revert y)).mapRefs f) = .ok y
    rw [c.input.mapRefs_print]
    exact hr y
  | .ignored _, _, _, _, _, _, _, _, _, h, _ => h

/-- The same for the members of a record. -/
theorem Members.read_print_mapRefs (f : RefMap) : (ms : Members) → (n' : Naming) → {n : Naming} →
    {row : RawRow} → {x : ms.El} → ms.Reverting → ms.DistinctColumns → ms.read n row = .ok x →
    (row' : RawRow) → ms.read n' (Value.mapRefsCells f (ms.print n' x row')) = .ok (ms.mapRefs f x)
  | .nil, _, _, _, _, _, _, _, _ => rfl
  | .cons info t rest, n', _, _, x, hr, hd, h, row' => by
    obtain ⟨hfirst, hothers⟩ := Members.read_cons_eq_ok h
    have hrest := rest.read_print_mapRefs f n' hr.2 hd.tail hothers (t.print info.name n' x.1 row')
    generalize hprinted : rest.print n' x.2 (t.print info.name n' x.1 row') = printed at hrest
    have hcell : t.isData = true → RawRow.cell (Value.mapRefsCells f printed)
        (n'.wireName info.name) = (t.printCell n' x.1).mapRefs f := by
      -- no later member prints to the column of this one
      intro hdata
      rw [Value.cell_mapRefsCells, ← hprinted,
        rest.cell_print_of_ne n' (Members.wireName_ne_of_nodup (hd.1 n') hdata),
        MemberType.print_eq, hdata, if_pos rfl, RawRow.cell_insert, if_pos rfl]
    have ht := t.read_print_mapRefs f info.name n' hr.1 hd.2.1 hfirst hcell
    simp only [Members.read, Members.print, hprinted, ht, hrest]
    rfl

end

/-! ### Without references replaced -/

/-- A value that was read under one naming reads back from what it prints to under another. -/
theorem CellType.read_print {t : CellType} (hkeys : t.StaticKeys) (hr : t.Reverting)
    (hd : t.DistinctColumns) (n' : Naming) {n : Naming} {v : Value} {x : t.El}
    (h : t.read n v = .ok x) : t.read n' (t.print n' x) = .ok x := by
  have hread := t.read_print_mapRefs .id n' hr hd h
  rwa [Value.mapRefs_id, t.mapRefs_id hkeys (CellType.canonical_of_read hkeys h)] at hread

/-- Members that were read under one naming read back from what they print to under another. -/
theorem Members.read_print {ms : Members} (hkeys : ms.StaticKeys) (hr : ms.Reverting)
    (hd : ms.DistinctColumns) (n' : Naming) {n : Naming} {row : RawRow} {x : ms.El}
    (h : ms.read n row = .ok x) : ms.read n' (ms.print n' x .empty) = .ok x := by
  have hread := ms.read_print_mapRefs .id n' hr hd h .empty
  rwa [Value.mapRefsCells_id, ms.mapRefs_id hkeys (Members.canonical_of_read hkeys h)] at hread

/-- Reading undoes printing, whatever was read before and under whatever naming. It does so for
cells of every type without dynamic keys and for rows of every record type, as long as converters
revert what they convert and members have columns of their own. -/
theorem reading_undoes_printing :
    (∀ (t : CellType) (n₁ n₂ : Naming) (v : Value) (x : t.El), t.StaticKeys → t.Reverting →
      t.DistinctColumns → t.read n₁ v = .ok x → t.read n₂ (t.print n₂ x) = .ok x) ∧
    ∀ (r : RecordType) (n₁ n₂ : Naming) (row : RawRow) (x : r.Row), r.cell.StaticKeys →
      r.cell.Reverting → r.cell.DistinctColumns → r.read n₁ row = .ok x →
        r.read n₂ (r.print n₂ x) = .ok x := by
  constructor
  · intro t n₁ n₂ v x hkeys hr hd h
    exact CellType.read_print hkeys hr hd n₂ h
  · intro r n₁ n₂ row x hkeys hr hd h
    exact Members.read_print hkeys.2 hr.2 hd (r.head.effectiveNaming n₂) h

/-- A row of waves under camel case: one spawn, a tag, and no boss. -/
def waveCells : RawRow :=
  [("boss", .text ""), ("spawns", .list [.record [("hero", .text "knight")]]),
    ("tags", .list [.text "fast"])]

/-- The wave that is read from these cells. -/
def wave : Game.wave.Row :=
  ([((⟨"knight", none⟩ : SheetRef), IntKind.u8.zero, ())], ["fast"], none, ())

/-- Waves are read under camel case and printed under kebab case, as rows and as cells. -/
theorem reading_undoes_printing_wave :
    Game.wave.read .kebab (Game.wave.print .kebab wave) = .ok wave ∧
      Game.wave.cell.read .kebab (Game.wave.cell.print .kebab wave) = .ok wave := by
  have hread : Game.wave.read .camel waveCells = .ok wave := rfl
  have hkeys : Game.wave.cell.StaticKeys := by decide
  have hcolumns : Game.wave.cell.DistinctColumns := by decide
  have hreverts : Game.wave.cell.Reverting := by
    simp [CellType.Reverting, Game.wave, Game.spawn, RecordType.cell, RecordType.plain,
      Members.ofList, rowsMember, dataMember, CellType.All, Members.All, MemberType.All,
      MemberType.Reverts]
  exact ⟨reading_undoes_printing.2 Game.wave .camel .kebab waveCells wave hkeys hreverts hcolumns
      hread,
    reading_undoes_printing.1 Game.wave.cell .camel .kebab (.record waveCells) wave hkeys hreverts
      hcolumns hread⟩

/-! ### Rows through a converter -/

namespace Game

/-- A pointer to a hero, with a mark that no column shows. -/
def pointer : RecordType :=
  .plain "Pointer" [dataMember "hero" (.sheetRef "Hero"), ignoredMember "marked" (.scalar .bool)]

/-- What a pointer is fixed to. -/
def plaque : RecordType := .plain "Plaque" [dataMember "pointer" pointer.cell]

/-- The only plaque of a hall. -/
def plaqueOf (key : String) (marked : Bool) : ListOf plaque.Row 1 :=
  ⟨[(((⟨key, none⟩ : SheetRef), marked, ()), ())], rfl⟩

/-- The plaque of a hall as a text: a sign for the mark, and then the key of the hero. -/
def printPlaque (plaques : ListOf plaque.Row 1) : String :=
  String.ofList (plaques.val.flatMap fun row =>
    (bif row.1.2.1 then '+' else '-') :: (SheetRef.key row.1.1).toList)

/-- The plaque that a text stands for. -/
def readPlaque (text : String) : ListOf plaque.Row 1 :=
  plaqueOf (String.ofList text.toList.tail) (text.toList.head? == some '+')

/-- The plaque of a hall is written as a text. -/
def plaqueText : RowsConverter :=
  .ofRows (.array 1) plaque.members "PlaqueText" (.scalar .text) (fun text => .ok (readPlaque text))
    printPlaque

/-- Halls: each has one plaque. -/
def hall : TableType where
  record := .table "Hall"
    [idMember "id" .text,
      (⟨"plaques", false, false⟩, .rows (.array 1) plaque.head plaque.members (some plaqueText))]
  id := .text
  getId := fun row => row.1

/-- A vertical member may have a converter. -/
theorem extract_hall : hall.record.decl.extract = .ok hall.record.decl.schema := by
  have hfault : hall.record.decl.fault? = none :=
    Option.isNone_iff_eq_none.mp (by decide +kernel)
  rw [RecordDecl.extract, hfault]

/-- The hall in the north: the plaque of its hero is marked. -/
def northHall : hall.Row := ("north", plaqueOf "knight" true, ())

/-- The cells of that hall. -/
def northCells : RawRow := [("Id", .text "north"), ("Plaques", .text "+knight")]

theorem print_northHall : hall.record.print .pascal northHall = northCells := rfl

theorem read_northCells : hall.record.read .pascal northCells = .ok northHall := rfl

theorem readPlaque_printPlaque (key : String) (marked : Bool) :
    readPlaque (printPlaque (plaqueOf key marked)) = plaqueOf key marked := by
  have htext : (printPlaque (plaqueOf key marked)).toList =
      (bif marked then '+' else '-') :: key.toList :=
    String.toList_ofList.trans (List.append_nil _)
  rw [readPlaque, htext, List.tail_cons, List.head?_cons, String.ofList_toList]
  cases marked <;> rfl

/-- The plaque of a hall is read back from the text that it is written as. -/
theorem reverting_hall : hall.record.members.Reverting := by
  have hplaques : (MemberType.rows (.array 1) plaque.head plaque.members
      (some plaqueText)).Reverts := by
    refine MemberType.reverts_ofRows (by decide) fun xs hxs => ⟨rfl, ?_⟩
    obtain ⟨rows, hlength⟩ := xs
    obtain ⟨⟨⟨⟨key, resolved⟩, marked, _⟩, _⟩, rfl⟩ := List.length_eq_one_iff.mp hlength
    -- a reference that was not looked up has nothing but its key
    obtain rfl : resolved = none := (hxs _ List.mem_cons_self).2.1.2.2.1.2
    exact congrArg Except.ok (readPlaque_printPlaque key marked)
  exact ⟨⟨trivial, trivial⟩, ⟨hplaques, ⟨trivial, trivial, ⟨trivial, trivial⟩, trivial, trivial⟩,
    trivial⟩, trivial⟩

end Game

end TypedSheets
