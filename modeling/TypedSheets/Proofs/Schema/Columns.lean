import Mathlib.Data.List.Nodup
import TypedSheets.Cell.Build
import TypedSheets.Cell.Shape
import TypedSheets.Code.Lexer
import TypedSheets.Proofs.Cell.RoundTrip
import TypedSheets.Proofs.Naming
import TypedSheets.Proofs.Sorted

/-!
# Columns of a record

Extraction rejects two data members with the same logical name. A column is named after the logical
name, but this is cut into words once more, and then names that differ may come to the same: of
`x_y` and `xy` the logical names are `XY` and `Xy`, and both columns are named `Xy`. What is told
apart under title case, though, is told apart under every naming, and logical names that are in
title case already are told apart.

## Main definitions

* `RecordDecl.columns` — the columns of the data members under a naming
* `RecordDecl.PlainNames`, `RecordDecl.InTitleCase` — of the logical names of the data members
* `Members.cells` — the cells that members print
* `Members.AgreeBut` — rows that differ in one member at most

## Main results

* `RecordDecl.nodup_properties` — what extraction checks
* `RecordDecl.nodup_columns_iff` — under title case the columns differ if they do at all
* `Members.print_perm`, `Members.agreeBut_of_read` — what it means that members have their own cells
* `RecordDecl.columns_of_extract` — the columns of a record that is extracted
* `RecordType.columns_collide` — an extracted record with one column for two members
-/

namespace TypedSheets

namespace RecordDecl

variable {d : RecordDecl} {s : RecordSchema}

/-! ### What extraction checks -/

/-- Members without faults have logical names that differ from each other and from earlier ones. -/
theorem nodup_of_faultFrom? {earlier members : List MemberDecl}
    (h : d.faultFrom? earlier members = none)
    (hearlier : (earlier.map fun m => propertyName m.name).Nodup) :
    ((earlier ++ members).map fun m => propertyName m.name).Nodup := by
  induction members generalizing earlier with
  | nil => rwa [List.append_nil]
  | cons m rest ih =>
    rw [faultFrom?] at h
    split at h
    · cases h
    · next hmember =>
      rw [List.append_cons]
      refine ih h ?_
      obtain ⟨haccessor, -⟩ := Option.or_eq_none_iff.mp hmember
      have hnew := Option.map_eq_none_iff.mp haccessor
      rw [List.find?_eq_none] at hnew
      rw [List.map_append, List.map_singleton, List.nodup_append]
      refine ⟨hearlier, List.nodup_singleton _, ?_⟩
      rintro _ hname _ hlast rfl
      obtain ⟨e, he, heq⟩ := List.mem_map.mp hname
      exact hnew e he (beq_iff_eq.mpr (heq.trans (List.mem_singleton.mp hlast)))

theorem extract_eq_ok_iff : d.extract = .ok s ↔ d.fault? = none ∧ s = d.schema := by
  rw [extract]
  cases d.fault? with
  | none => simp [eq_comm]
  | some fault => simp

/-- A declaration without faults is extracted. -/
theorem extract_of_isNone (h : d.fault?.isNone = true) : d.extract = .ok d.schema :=
  extract_eq_ok_iff.mpr ⟨Option.isNone_iff_eq_none.mp h, rfl⟩

/-- In a record that is extracted the data members have different logical names. -/
theorem nodup_properties (h : d.extract = .ok s) :
    (d.dataMembers.map fun m => propertyName m.name).Nodup := by
  obtain ⟨hfault, -⟩ := extract_eq_ok_iff.mp h
  exact nodup_of_faultFrom? hfault List.nodup_nil

/-! ### Columns -/

/-- The columns of the data members under a naming. -/
def columns (d : RecordDecl) (n : Naming) : List String :=
  d.dataMembers.map fun m => n.wireName m.name

/-- The characters of the logical names have plain case. -/
def PlainNames (d : RecordDecl) : Prop :=
  ∀ m ∈ d.dataMembers, Text.Plain (propertyName m.name).toList

/-- The logical names are in title case, so they are the columns under it. -/
def InTitleCase (d : RecordDecl) : Prop :=
  ∀ m ∈ d.dataMembers, Naming.pascal.wireName m.name = propertyName m.name

instance (d : RecordDecl) : Decidable d.PlainNames :=
  inferInstanceAs (Decidable (∀ m ∈ d.dataMembers, Text.Plain (propertyName m.name).toList))

instance (d : RecordDecl) : Decidable d.InTitleCase :=
  inferInstanceAs (Decidable (∀ m ∈ d.dataMembers, _ = _))

/-- Members that are named in ASCII have plain logical names. -/
theorem plainNames_of_ascii (h : ∀ m ∈ d.dataMembers, Text.Ascii m.name.toList) : d.PlainNames :=
  fun m hm => plain_propertyName (h m hm)

theorem declaredName_field (d : RecordDecl) (m : MemberDecl) :
    (d.field m).declaredName = m.name := by
  rw [field, FieldDescriptor.describe]
  rfl

theorem declaredNames_schema (d : RecordDecl) :
    d.schema.fields.map FieldDescriptor.declaredName = d.dataMembers.map MemberDecl.name := by
  rw [schema, List.map_map]
  exact List.map_congr_left fun m _ => d.declaredName_field m

theorem wireNames_schema (d : RecordDecl) (n : Naming) :
    (d.schema.fields.map fun f => f.wireNameFor n) = d.columns n := by
  have hnames := congrArg (List.map n.wireName) d.declaredNames_schema
  rwa [List.map_map, List.map_map] at hnames

/-- Members that share a column under some naming share it under title case. -/
theorem pascal_wireName_congr (hplain : d.PlainNames) {m m' : MemberDecl} (hm : m ∈ d.dataMembers)
    (hm' : m' ∈ d.dataMembers) {n : Naming} (h : n.wireName m.name = n.wireName m'.name) :
    Naming.pascal.wireName m.name = Naming.pascal.wireName m'.name :=
  Naming.pascal_apply_congr (hplain m hm) (hplain m' hm') h

/-- Columns that differ under title case differ under every naming. -/
theorem nodup_columns_iff (hplain : d.PlainNames) :
    (∀ n : Naming, (d.columns n).Nodup) ↔ (d.columns .pascal).Nodup := by
  constructor
  · exact fun h => h .pascal
  · intro h n
    have hpairs := List.pairwise_map.mp h
    rw [columns, List.nodup_iff_pairwise_ne, List.pairwise_map]
    refine hpairs.imp_of_mem fun {m m'} hm hm' hne heq => ?_
    exact hne (pascal_wireName_congr hplain hm hm' heq)

/-- The columns of a record that is extracted differ if its logical names are in title case. -/
theorem nodup_columns_of_extract (h : d.extract = .ok s) (hcase : d.InTitleCase) :
    (d.columns .pascal).Nodup := by
  have hcolumns : d.columns .pascal = d.dataMembers.map fun m => propertyName m.name :=
    List.map_congr_left hcase
  rw [hcolumns]
  exact nodup_properties h

end RecordDecl

/-! ### Cells of their own -/

/-- The names of the data members are those that are declared. -/
theorem Members.dataNames_eq (ms : Members) :
    ms.dataNames = (ms.decls.filter MemberDecl.isData).map MemberDecl.name := by
  cases ms with
  | nil => rfl
  | cons info t rest =>
    rw [dataNames, decls, rest.dataNames_eq]
    cases t <;> rfl

theorem RecordType.columns_decl (r : RecordType) (n : Naming) :
    r.decl.columns n = r.members.dataNames.map n.wireName := by
  rw [Members.dataNames_eq, List.map_map]
  rfl

/-- The cells of data members, each in its column. -/
def Members.cells (n : Naming) : (ms : Members) → ms.El → List (String × Value)
  | .nil, _ => []
  | .cons info t rest, x =>
    if t.isData then (n.wireName info.name, t.printCell n x.1) :: rest.cells n x.2
    else rest.cells n x.2

theorem Members.map_fst_cells : (ms : Members) → (n : Naming) → (x : ms.El) →
    (ms.cells n x).map Prod.fst = ms.dataNames.map n.wireName
  | .nil, _, _ => rfl
  | .cons info t rest, n, x => by
    rw [cells, dataNames]
    split
    · rw [List.map_cons, List.map_cons, rest.map_fst_cells]
    · exact rest.map_fst_cells n x.2

/-- Members with columns of their own print a cell each. -/
theorem Members.print_perm (n : Naming) : (ms : Members) → (x : ms.El) → (row : RawRow) →
    (ms.dataNames.map n.wireName ++ row.map Prod.fst).Nodup →
      (ms.print n x row).Perm (ms.cells n x ++ row)
  | .nil, _, _, _ => .refl _
  | .cons info t rest, x, row, hcolumns => by
    rw [dataNames] at hcolumns
    change (rest.print n x.2 (t.print info.name n x.1 row)).Perm _
    rw [MemberType.print_eq, cells]
    by_cases hdata : t.isData = true
    · rw [if_pos hdata, List.map_cons, List.cons_append, List.nodup_cons, List.mem_append,
        not_or] at hcolumns
      obtain ⟨⟨hlater, hrow⟩, hothers⟩ := hcolumns
      -- the cell is new in the row, and stays untouched by the members behind
      have hinsert : (row.insert (n.wireName info.name) (t.printCell n x.1)).Perm
          ((n.wireName info.name, t.printCell n x.1) :: row) := Entries.insert_perm hrow
      rw [if_pos hdata, if_pos hdata]
      refine (rest.print_perm n x.2 _ ?_).trans ?_
      · rw [((hinsert.map Prod.fst).append_left _).nodup_iff, List.map_cons,
          List.perm_middle.nodup_iff, List.nodup_cons, List.mem_append, not_or]
        exact ⟨⟨hlater, hrow⟩, hothers⟩
      · exact (hinsert.append_left _).trans List.perm_middle
    · rw [if_neg hdata] at hcolumns
      rw [if_neg hdata, if_neg hdata]
      exact rest.print_perm n x.2 row hcolumns

/-- Rows that are alike in all members but perhaps the data member of that name. -/
def Members.AgreeBut (name : String) : (ms : Members) → ms.El → ms.El → Prop
  | .nil, _, _ => True
  | .cons info t rest, x, y =>
    (t.isData = true ∧ info.name = name ∨ x.1 = y.1) ∧ rest.AgreeBut name x.2 y.2

/-- A data member is read from the cell in its column. -/
theorem MemberType.read_congr (t : MemberType) (name : String) (n : Naming) {raw raw' : RawRow}
    (h : t.isData = true → raw.cell (n.wireName name) = raw'.cell (n.wireName name)) :
    t.read name n raw = t.read name n raw' := by
  cases t with
  | ignored _ => rfl
  | _ => simp only [MemberType.read, h rfl]

/-- If other members have other columns, the cell of a member is read for this member only. -/
theorem Members.agreeBut_of_read {n : Naming} {name : String} {raw raw' : RawRow}
    (hraw : ∀ column, column ≠ n.wireName name → raw.cell column = raw'.cell column) :
    (ms : Members) →
    (∀ other ∈ ms.dataNames, other ≠ name → n.wireName other ≠ n.wireName name) → {x y : ms.El} →
      ms.read n raw = .ok x → ms.read n raw' = .ok y → ms.AgreeBut name x y
  | .nil, _, _, _, _, _ => trivial
  | .cons info t rest, hothers, x, y, h, h' => by
    obtain ⟨hfirst, hrest⟩ := Members.read_cons_eq_ok h
    obtain ⟨hfirst', hrest'⟩ := Members.read_cons_eq_ok h'
    rw [dataNames] at hothers
    refine ⟨?_, rest.agreeBut_of_read hraw (fun other hother => hothers other ?_) hrest hrest'⟩
    · by_cases hsame : t.isData = true ∧ info.name = name
      · exact Or.inl hsame
      · -- the member has another column, and there the rows agree
        have hread : t.read info.name n raw = t.read info.name n raw' := by
          refine t.read_congr info.name n fun hdata => hraw _ (hothers info.name ?_ ?_)
          · rw [if_pos hdata]
            exact List.mem_cons_self
          · exact fun hname => hsame ⟨hdata, hname⟩
        rw [hread, hfirst'] at hfirst
        exact Or.inr (Except.ok.inj hfirst).symm
    · split
      · exact List.mem_cons_of_mem _ hother
      · exact hother

/-- The columns of a record that is extracted. If they differ under title case they differ under
every naming, and so they do if the logical names are in title case. Where they differ, a row is
printed to one cell for each data member and no other cells, and of two raw rows that differ in the
column of one data member, the rows that are read differ in this member at most. -/
theorem RecordDecl.columns_of_extract {d : RecordDecl} {s : RecordSchema} (h : d.extract = .ok s)
    (hplain : d.PlainNames) :
    ((∀ n, (s.fields.map fun f => f.wireNameFor n).Nodup) ↔
      (s.fields.map fun f => f.wireNameFor .pascal).Nodup) ∧
    (d.InTitleCase → ∀ n, (s.fields.map fun f => f.wireNameFor n).Nodup) ∧
    ∀ (r : RecordType) (n : Naming), r.decl = d →
      (s.fields.map fun f => f.wireNameFor (s.effectiveNaming n)).Nodup →
        (∀ row : r.Row, (r.print n row).Perm (r.members.cells (s.effectiveNaming n) row) ∧
          (r.members.cells (s.effectiveNaming n) row).map Prod.fst =
            s.fields.map fun f => f.wireNameFor (s.effectiveNaming n)) ∧
        ∀ f ∈ s.fields, ∀ (raw raw' : RawRow) (x y : r.Row),
          (∀ column, column ≠ f.wireNameFor (s.effectiveNaming n) →
            raw.cell column = raw'.cell column) →
          r.read n raw = .ok x → r.read n raw' = .ok y →
            r.members.AgreeBut f.declaredName x y := by
  obtain ⟨-, rfl⟩ := extract_eq_ok_iff.mp h
  simp only [wireNames_schema]
  refine ⟨nodup_columns_iff hplain, fun hcase => (nodup_columns_iff hplain).mpr
    (nodup_columns_of_extract h hcase), ?_⟩
  rintro r n rfl hcolumns
  have hnaming : r.decl.schema.effectiveNaming n = r.head.effectiveNaming n := rfl
  rw [hnaming, r.columns_decl] at hcolumns ⊢
  refine ⟨fun row => ⟨?_, r.members.map_fst_cells _ row⟩, ?_⟩
  · -- what is printed starts from the empty row
    have hprint := r.members.print_perm (r.head.effectiveNaming n) row .empty
      (by simpa [RawRow.empty] using hcolumns)
    rwa [RawRow.empty, List.append_nil] at hprint
  · -- another member of the same column would have the same name
    intro f hf raw raw' x y hraw hx hy
    obtain ⟨m, hm, rfl⟩ := List.mem_map.mp hf
    rw [FieldDescriptor.wireNameFor, declaredName_field] at hraw
    rw [declaredName_field]
    have hname : m.name ∈ r.members.dataNames := by
      rw [Members.dataNames_eq]
      exact List.mem_map_of_mem hm
    refine r.members.agreeBut_of_read hraw (fun other hother hne heq => hne ?_) hx hy
    exact List.inj_on_of_nodup_map hcolumns hother hname heq

/-- In arenas every member has a column of its own, whatever the naming is, and a row is printed to
one cell for each of its four members. -/
theorem RecordDecl.columns_of_extract_arena :
    (∃ s, Game.arena.record.decl.extract = .ok s ∧
      ∀ n, (s.fields.map fun f => f.wireNameFor n).Nodup) ∧
    ∀ (n : Naming) (row : Game.arena.record.Row),
      ((Game.arena.record.print n row).map Prod.fst).Perm
        ["id", "cornerSpawns", "spawnPool", "extraWaves"] := by
  have hextract : Game.arena.record.decl.extract = .ok Game.arena.record.decl.schema :=
    RecordDecl.extract_of_isNone (by decide +kernel)
  obtain ⟨-, hcase, hcells⟩ := RecordDecl.columns_of_extract hextract
    (RecordDecl.plainNames_of_ascii (by decide +kernel))
  have hcolumns := hcase (by decide +kernel)
  refine ⟨⟨_, hextract, hcolumns⟩, fun n row => ?_⟩
  obtain ⟨hrows, -⟩ := hcells Game.arena.record n rfl (hcolumns _)
  have hnames : Game.arena.record.decl.columns .camel =
      ["id", "cornerSpawns", "spawnPool", "extraWaves"] := by decide +kernel
  have hperm := (hrows row).1.map Prod.fst
  rw [(hrows row).2, RecordDecl.wireNames_schema] at hperm
  exact hnames ▸ hperm

namespace RecordType

/-- A record with two members that come to one column. -/
def twins : RecordType :=
  .plain "Twins" [dataMember "x_y" (.int .u32), dataMember "xy" (.int .u32)]

/-- A record may be extracted and have one column for two members, under every naming: of the two
only one is printed, and both are read from its cell. -/
theorem columns_collide : Code.isIdentifier "x_y" = true ∧ Code.isIdentifier "xy" = true ∧
    (∃ s, twins.decl.extract = .ok s ∧
      ∀ n, ¬ (s.fields.map fun f => f.wireNameFor n).Nodup) ∧
    (∀ n row, (twins.print n row).length = 1) ∧
    ∃ row row' : twins.Row, row ≠ row' ∧
      ∀ n, twins.read n (twins.print n row) = .ok row' := by
  have hextract : twins.decl.extract = .ok twins.decl.schema :=
    RecordDecl.extract_of_isNone (by decide)
  have hsame : ∀ n : Naming, n.wireName "x_y" = n.wireName "xy" := by
    intro n
    cases n <;> decide
  -- both members have one cell, and the second one is written over the first
  refine ⟨by decide, by decide,
    ⟨_, hextract, fun n hn => ?_⟩, fun n row => ?_,
    (⟨1, by decide⟩, ⟨2, by decide⟩, ()), (⟨2, by decide⟩, ⟨2, by decide⟩, ()), fun h => ?_,
    fun n => ?_⟩
  · have hcolumns : twins.decl.columns n = [n.wireName "x_y", n.wireName "xy"] := rfl
    rw [RecordDecl.wireNames_schema, hcolumns, hsame] at hn
    simp at hn
  · have hprint : twins.print n row =
        (RawRow.empty.insert (n.wireName "x_y") ((CellType.int .u32).print n row.1)).insert
          (n.wireName "xy") ((CellType.int .u32).print n row.2.1) := rfl
    rw [hprint, hsame]
    simp [RawRow.insert, RawRow.empty, Entries.insert, Std.ReflCmp.compare_self]
  · have hfirst : (1 : Int) = 2 := congrArg (fun row : twins.Row => row.1.val) h
    exact absurd hfirst (by decide)
  · cases n <;> rfl

end RecordType

end TypedSheets
