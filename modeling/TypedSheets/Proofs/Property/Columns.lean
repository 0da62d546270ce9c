import TypedSheets.Proofs.Cell.RoundTrip
import TypedSheets.Proofs.Property.Paths

/-!
# Leaves in the printed row

A row is seen through its property tree, and in the cells that it prints to. The way to a leaf goes
through columns: the wire names of the nodes on it. In all but the last of them are the rows of a
vertical member, of which an index chooses one, and in the last is the value of the leaf. Where no
record declares a naming and none has two members in one column, the printed row has the value that
the leaf has in the tree.

## Main definitions

* `RawRow.cellAt?` — the cell below a row, by columns and indexes
* `PropertyNode.columnsTo?` — the columns on the way to a node
* `RecordType.PascalColumns` — no naming is declared, and no column is shared

## Main results

* `Members.cellAt?_of_readAt` — what stands at a place of members is in the cell there
* `RecordType.cellAt?_of_get` — what is read through a node is in the printed row
* `RecordType.walk_agrees_with_print` — the same for all that a walk meets
-/

namespace TypedSheets

/-! ### Ways through cells and through nodes -/

/-- The cell that columns and indexes lead to: each column but the last holds rows, of which an
index chooses the one to go on in. -/
def RawRow.cellAt? : (columns : List String) → (indexes : List Nat) → RawRow → Option Value
  | [column], [], row => row.get? column
  | column :: below, i :: indexes, row =>
    match row.get? column with
    | some (.list items) =>
      match items[i]? with
      | some (.record cells) => RawRow.cellAt? below indexes cells
      | _ => none
    | _ => none
  | _, _, _ => none

theorem RawRow.cellAt?_cons {row cells : RawRow} {column : String} {items : List Value} {i : Nat}
    (hcolumn : row.get? column = some (.list items)) (hitem : items[i]? = some (.record cells))
    (below : List String) (indexes : List Nat) :
    row.cellAt? (column :: below) (i :: indexes) = cells.cellAt? below indexes := by
  rw [cellAt?, hcolumn]
  simp only [hitem]

namespace PropertyNode

variable {ρ α : Type}

/-- The wire names of the nodes on the way down to a position in a list of trees. -/
def columnsIn? : (position : List Nat) → List (PropertyNode ρ) → Option (List String)
  | [], _ => some []
  | i :: rest, ns =>
    ns[i]?.bind fun n => n.descriptor.bind fun d =>
      (columnsIn? rest n.children).map (d.wireName :: ·)

/-- The wire names of the nodes on the way from a node, which is not among them, down to a
position. -/
def columnsTo? (n : PropertyNode ρ) (position : List Nat) : Option (List String) :=
  columnsIn? position n.children

/-- Below an element of a list the nodes have the columns that they have in the element. -/
theorem columnsIn?_map_lift (e : Elements ρ α) (parent : String) (position : List Nat)
    (ns : List (PropertyNode α)) :
    columnsIn? position (ns.map (lift e parent)) = columnsIn? position ns := by
  induction position generalizing ns with
  | nil => rfl
  | cons i rest ih =>
    rw [columnsIn?, columnsIn?, List.getElem?_map]
    cases ns[i]? with
    | none => rfl
    | some n => simp only [Option.map_some, Option.bind_some, descriptor_lift, children_lift, ih]

theorem columnsIn?_vertical (d : FieldDescriptor) (e : Elements ρ α) (ns : List (PropertyNode α))
    (position : List Nat) : columnsIn? (0 :: position) [vertical d e ns] =
      (columnsIn? position ns).map (d.wireName :: ·) := by
  change (columnsIn? position (liftEach e d.propertyName ns)).map (d.wireName :: ·) = _
  rw [liftEach_eq_map, columnsIn?_map_lift]

end PropertyNode

open PropertyNode (columnsIn?)

/-- A record that declares no naming names the columns of its members in pascal case. -/
theorem RecordDecl.wireName_field {d : RecordDecl} (hd : d.naming = none) (info : MemberInfo)
    (t : MemberType) :
    (d.field (t.decl info)).wireName = Naming.pascal.wireName info.name := by
  rw [field, FieldDescriptor.describe, ownNaming, hd, t.name_decl]
  rfl

/-! ### Columns in pascal case -/

/-- A record declares no naming, and its members have different columns in pascal case. -/
def RecordHead.PascalColumns (head : RecordHead) (ms : Members) : Prop :=
  head.naming = none ∧ (ms.dataNames.map Naming.pascal.wireName).Nodup

/-- So it is for the records of a vertical member. -/
def MemberType.HasPascalColumns : MemberType → Prop
  | .rows _ head ms _ => head.PascalColumns ms
  | _ => True

/-- A record type and those of its vertical members declare no naming, and each of them has
different columns for its members. -/
def RecordType.PascalColumns (r : RecordType) : Prop :=
  r.head.PascalColumns r.members ∧ r.members.All (fun _ => True) MemberType.HasPascalColumns

instance (head : RecordHead) (ms : Members) : Decidable (head.PascalColumns ms) :=
  inferInstanceAs (Decidable (_ ∧ _))

instance : DecidablePred MemberType.HasPascalColumns
  | .rows _ head ms _ => inferInstanceAs (Decidable (head.PascalColumns ms))
  | .cell _ | .converted _ | .ignored _ => .isTrue trivial

instance (r : RecordType) : Decidable r.PascalColumns := inferInstanceAs (Decidable (_ ∧ _))

/-! ### Leaves and cells -/

mutual

/-- What stands at a place of a member is in the cell there, if the cell of the member is in the
row. -/
theorem MemberType.cellAt?_of_readAt {ρ : Type} {d : RecordDecl} (hd : d.naming = none)
    (info : MemberInfo) : (t : MemberType) → (len : Lens ρ t.El) →
    t.All (fun _ => True) MemberType.HasPascalColumns →
    t.All (fun _ => True) MemberType.HasPlainRows → {position indexes : List Nat} →
    {x : t.El} → {v : Value} → t.readAt position indexes x = .ok v →
    ∃ columns, columnsIn? (0 :: position) (t.nodes d info len) = some columns ∧
      ∀ row : RawRow, row.get? (Naming.pascal.wireName info.name) = some (t.printCell .pascal x) →
        row.cellAt? columns indexes = some v
  | .cell t, len, _, _, position, indexes, x, v, h => by
    cases position with
    | nil =>
      cases indexes with
      | nil =>
        cases h
        exact ⟨_, rfl, fun row hrow => by rwa [RecordDecl.wireName_field hd]⟩
      | cons i indexes => cases h
    | cons number position => cases h
  | .rows _ _ _ (some _), _, _, hplain, _, _, _, _, _ => nomatch hplain.1
  | .rows form head ms none, len, hcolumns, hplain, position, indexes, xs, v, h => by
    cases position with
    | nil => cases h
    | cons number position =>
      cases indexes with
      | nil => cases h
      | cons i indexes =>
        obtain ⟨hhead, hbelow⟩ := hcolumns
        obtain ⟨hnaming, hnodup⟩ : head.PascalColumns ms := hhead
        simp only [MemberType.readAt] at h
        split at h
        · next x hx =>
          obtain ⟨columns, hway, hcell⟩ := Members.cellAt?_of_readAt (d := head.decl ms) hnaming ms
            Lens.whole hnodup hbelow hplain.2 h
          -- the nodes below are those of the record, and its printed row is in the list
          refine ⟨_, (PropertyNode.columnsIn?_vertical _ _ _ _).trans
            (congrArg (Option.map _) hway), fun row hrow => ?_⟩
          have hitem : ((form.items xs).map fun x =>
              Value.record (ms.print (head.effectiveNaming .pascal) x .empty))[i]? =
                some (.record (ms.print .pascal x .empty)) := by
            rw [List.getElem?_map, hx, RecordHead.effectiveNaming, hnaming]
            rfl
          rw [RecordDecl.wireName_field hd, RawRow.cellAt?_cons hrow hitem]
          exact hcell .empty
        · cases h
  | .converted c, len, _, _, position, indexes, y, v, h => by
    cases position with
    | nil =>
      cases indexes with
      | nil =>
        cases h
        exact ⟨_, rfl, fun row hrow => by rwa [RecordDecl.wireName_field hd]⟩
      | cons i indexes => cases h
    | cons number position => cases h
  | .ignored _, _, _, _, position, indexes, _, _, h => by
    cases position <;> cases indexes <;> cases h

/-- What stands at a place of members is in the cell there of the row that they are printed to. -/
theorem Members.cellAt?_of_readAt {ρ : Type} {d : RecordDecl} (hd : d.naming = none) :
    (ms : Members) → (len : Lens ρ ms.El) → (ms.dataNames.map Naming.pascal.wireName).Nodup →
    ms.All (fun _ => True) MemberType.HasPascalColumns → ms.PlainRows → {number : Nat} →
    {position indexes : List Nat} → {x : ms.El} → {v : Value} →
    ms.readAt number position indexes x = .ok v →
    ∃ columns, columnsIn? (number :: position) (ms.nodes d len) = some columns ∧
      ∀ row : RawRow, (ms.print .pascal x row).cellAt? columns indexes = some v
  | .nil, _, _, _, _, _, _, _, _, _, h => by cases h
  | .cons info t rest, len, hnodup, hcolumns, hplain, number, position, indexes, x, v, h => by
    rw [Members.readAt_cons] at h
    rw [columnsIn?, Members.getElem?_nodes]
    obtain ⟨hdata, -, hpick⟩ | ⟨later, -, hpick⟩ := t.pick_cases number
    · rw [hpick] at h
      obtain ⟨columns, hway, hcell⟩ := t.cellAt?_of_readAt hd info len.first hcolumns.1 hplain.1 h
      rw [hpick]
      refine ⟨columns, hway, fun row => hcell _ ?_⟩
      -- no later member prints to the column of this one
      rw [Members.print, rest.get?_print_of_ne .pascal (Members.wireName_ne_of_nodup hnodup hdata),
        MemberType.print_eq, if_pos hdata, RawRow.get?_insert, if_pos rfl]
    · rw [hpick] at h
      obtain ⟨columns, hway, hcell⟩ := rest.cellAt?_of_readAt hd len.second
        (Members.nodup_columns_tail hnodup) hcolumns.2 hplain.2 h
      rw [hpick]
      exact ⟨columns, hway, fun row => hcell _⟩

end

namespace RecordType

variable {r : RecordType}

/-- A value that is read through a node at a position is in the cell there of the printed row. -/
theorem cellAt?_of_get (hr : r.PascalColumns) (hplain : r.members.PlainRows) {position : List Nat}
    {n : PropertyNode r.Row} (hn : r.properties.descend? position = some n) {row : r.Row}
    {indexes : List Nat} {v : Value}
    (h : n.get row indexes = .ok v) :
    ∃ columns, r.properties.columnsTo? position = some columns ∧
      (r.print .pascal row).cellAt? columns indexes = some v := by
  obtain ⟨⟨hnaming, hnodup⟩, hcolumns⟩ := hr
  -- through the node is read what stands at its position, by an index for each list
  have hplace := ((r.operates hn (PropertyNode.isLeaf_of_get h)).2 row indexes).1.symm.trans h
  cases position with
  | nil => cases hplace
  | cons number below =>
    rw [readAt, atPlace] at hplace
    split at hplace
    · obtain ⟨columns, hway, hcell⟩ := r.members.cellAt?_of_readAt (d := r.decl) hnaming Lens.whole
        hnodup hcolumns hplain (mapError_eq_ok_iff.mp hplace)
      refine ⟨columns, hway, ?_⟩
      rw [print, RecordHead.effectiveNaming, hnaming]
      exact hcell .empty
    · cases hplace

/-- What the walk of the property tree of a row meets is in the printed row: at a position of the
tree stands the node, and whatever the position is, the columns on the way to it and the indexes
lead to the cell with the value that is read through the node. Rows that a converter writes are in
no list of cells, so there must be none. -/
theorem walk_agrees_with_print (hr : r.PascalColumns) (hplain : r.members.PlainRows) (row : r.Row)
    {s : PropertyNode.Site r.Row} (hs : s ∈ r.properties.walk row) :
    (∃ position, r.properties.descend? position = some s.1) ∧
    ∀ position, r.properties.descend? position = some s.1 →
      ∃ columns v, r.properties.columnsTo? position = some columns ∧ s.1.get row s.2 = .ok v ∧
        (r.print .pascal row).cellAt? columns s.2 = some v := by
  obtain ⟨leaf, -, hleaf⟩ := exists_of_mem_forall₂ (r.leaves_eq_walk row) hs
  refine ⟨⟨leaf.position, hleaf.node⟩, fun position hn => ?_⟩
  obtain ⟨columns, hway, hcell⟩ := cellAt?_of_get hr hplain hn hleaf.value
  exact ⟨columns, leaf.value, hway, hleaf.value, hcell⟩

/-- The hero of the only spawn of the only wave of a stage. -/
theorem walk_agrees_with_print_stage :
    let row : Game.stage.record.Row :=
      ("night", [wave], ((⟨"rook", none⟩ : SheetRef), IntKind.u8.zero, ()), ())
    ∃ s ∈ Game.stage.record.properties.walk row,
      Game.stage.record.properties.descend? [1, 0, 0] = some s.1 ∧ s.2 = [0, 0] ∧
      s.1.get row s.2 = .ok (.sheetRef ⟨"Hero", ⟨"knight", none⟩⟩) ∧
      (Game.stage.record.print .pascal row).cellAt? ["Waves", "Spawns", "Hero"] [0, 0] =
        some (.sheetRef ⟨"Hero", ⟨"knight", none⟩⟩) := by
  intro row
  have hcolumns : Game.stage.record.PascalColumns := by decide +kernel
  have hmem : (⟨[1, 0, 0], [0, 0], .sheetRef ⟨"Hero", ⟨"knight", none⟩⟩⟩ : Leaf) ∈
      Game.stage.record.leaves row := List.mem_of_getElem? (i := 1) rfl
  obtain ⟨s, hs, hnode, hindexes, hvalue⟩ :=
    exists_of_mem_forall₂ (Game.stage.record.leaves_eq_walk row).flip hmem
  obtain ⟨columns, v, hway, hget, hcell⟩ :=
    (walk_agrees_with_print hcolumns (by decide) row hs).2 _ hnode
  have hstage : Game.stage.record.properties.columnsTo? [1, 0, 0] =
      some ["Waves", "Spawns", "Hero"] := by decide +kernel
  obtain rfl := Option.some.inj (hstage.symm.trans hway)
  obtain rfl := Except.ok.inj (hvalue.symm.trans hget)
  rw [← hindexes] at hcell
  exact ⟨s, hs, hnode, hindexes.symm, hget, hcell⟩

/-- The rows of a vertical member that has a converter are in no list of cells. The walk meets the
pointer of the plaque of a hall, but the column of plaques has a text, which is no way to it. -/
theorem walk_differs_from_print_hall :
    Game.hall.record.decl.extract = .ok Game.hall.record.decl.schema ∧
    Game.hall.record.PascalColumns ∧
    ∃ s ∈ Game.hall.record.properties.walk Game.northHall,
      Game.hall.record.properties.descend? [1, 0] = some s.1 ∧ s.2 = [0] ∧
      Game.hall.record.properties.columnsTo? [1, 0] = some ["Plaques", "Pointer"] ∧
      s.1.get Game.northHall s.2 =
        .ok (.record [("Hero", .sheetRef ⟨"Hero", ⟨"knight", none⟩⟩)]) ∧
      (Game.hall.record.print .pascal Game.northHall).cellAt? ["Plaques"] [] =
        some (.text "+knight") ∧
      (Game.hall.record.print .pascal Game.northHall).cellAt? ["Plaques", "Pointer"] [0] =
        none := by
  have hmem : (⟨[1, 0], [0], .record [("Hero", .sheetRef ⟨"Hero", ⟨"knight", none⟩⟩)]⟩ : Leaf) ∈
      Game.hall.record.leaves Game.northHall := List.mem_of_getElem? (i := 1) rfl
  obtain ⟨s, hs, hnode, hindexes, hvalue⟩ :=
    exists_of_mem_forall₂ (Game.hall.record.leaves_eq_walk Game.northHall).flip hmem
  have hcolumns : Game.hall.record.PascalColumns := by decide +kernel
  have hway : Game.hall.record.properties.columnsTo? [1, 0] = some ["Plaques", "Pointer"] := by
    decide +kernel
  rw [Game.print_northHall]
  exact ⟨Game.extract_hall, hcolumns, s, hs, hnode, hindexes.symm, hway, hvalue, rfl, rfl⟩

end RecordType

end TypedSheets
