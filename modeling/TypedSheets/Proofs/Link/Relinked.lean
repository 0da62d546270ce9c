import TypedSheets.Proofs.Cell.Origin
import TypedSheets.Proofs.Cell.RoundTrip
import TypedSheets.Proofs.Link.Rows
import TypedSheets.Proofs.Schema.References
import TypedSheets.Table.Type

/-!
# Rows with their references linked

What linking does to the members of a row. It writes a whole leaf: a leaf becomes what is read back
from the value that it prints to, with the references in there replaced. It never touches a member
without references, nor the key or path of a reference, and so it leaves the id of a row that is
told by plain members. And it replaces every reference that no converter writes, provided that cells
read back from what they print to: nothing is left out and no write is lost.

## Main definitions

* `RefMap.KeepsNames` — references that go on to name the same row or asset
* `Members.ResolvedAs` — a row with its references resolved in another way
* `TableType.ResolutionBlind` — ids that stay when references are resolved in another way
* `TableType.PlainId` — ids that are told by plain members
* `Linker.Keeps` — a property of parts that rewriting keeps
* `Members.Lawful` — members that read back from what they print to, and show their references

## Main results

* `Members.resolvedAs_relinked` — linking a row resolves its references in another way
* `TableType.PlainId.resolutionBlind` — ids that are told by plain members stay
* `Members.every_relinked` — what rewriting keeps, linking keeps at every part
* `Members.canonical_relinked` — a sorted row stays sorted
* `Members.everyRef_relinked` — what linked and unresolved references have, all references keep
* `Members.relinked_eq_mapRefs` — linking a row that was read replaces all its references
* `Members.everyUnconvertedRef_relinked` — the same of the members without a converter
-/

namespace TypedSheets

/-! ### References in what is printed -/

section Printed

variable {R : TargetRef → Prop} {A : AssetRef → Prop}

theorem RawRow.everyRefCells_insert {row : RawRow} {column : String} {v : Value}
    (hrow : Value.EveryRefCells R A row) (hv : v.EveryRef R A) :
    Value.EveryRefCells R A (row.insert column v) := by
  rw [Value.everyRefCells_iff] at hrow ⊢
  intro c hc
  rcases Entries.snd_mem_of_mem_insert hc with heq | hmem
  · rwa [heq]
  · obtain ⟨c', hc', heq⟩ := List.mem_map.mp hmem
    rw [← heq]
    exact hrow c' hc'

mutual

/-- A value prints to a value that holds no other references. -/
theorem CellType.everyRef_print : (t : CellType) → (n : Naming) → {x : t.El} → t.EveryRef R A x →
    (t.print n x).EveryRef R A
  | .scalar s, _, x, _ => s.everyRef_print R A x
  | .option t, n, x, h => by
    cases x with
    | none => trivial
    | some y => exact t.everyRef_print n (h.2 y rfl)
  | .sequence _ t, n, _, h => Value.everyRefItems_iff.mpr
    (List.forall_mem_map.mpr fun y hy => t.everyRef_print n (h.2 y hy))
  | .array t _, n, _, h => Value.everyRefItems_iff.mpr
    (List.forall_mem_map.mpr fun y hy => t.everyRef_print n (h.2 y hy))
  | .set _ t, n, _, h => Value.everyRefItems_iff.mpr
    (List.forall_mem_map.mpr fun y hy => t.everyRef_print n (h.2 y hy))
  | .map _ _ k v, n, _, h => Value.everyRefEntries_iff.mpr
    (List.forall_mem_map.mpr fun e he =>
      ⟨k.everyRef_print n (h.2 e he).1, v.everyRef_print n (h.2 e he).2⟩)
  | .sheetRef _, _, _, h => h
  | .assetRef, _, _, h => h
  | .record head ms, n, _, h => ms.everyRef_print (head.effectiveNaming n) h.2 trivial
  | .any, _, _, h => h

theorem MemberType.everyRef_print (t : MemberType) (name : String) (n : Naming) {x : t.El}
    (h : t.EveryRef R A x) {row : RawRow} (hrow : Value.EveryRefCells R A row) :
    Value.EveryRefCells R A (t.print name n x row) := by
  cases t with
  | cell t => exact RawRow.everyRefCells_insert hrow (t.everyRef_print n h.2)
  | rows form head ms via =>
    refine RawRow.everyRefCells_insert hrow ?_
    cases via with
    | none =>
      exact Value.everyRefItems_iff.mpr (List.forall_mem_map.mpr fun y hy =>
        ms.everyRef_print (head.effectiveNaming n) (h.2 y hy) trivial)
    | some c => exact c.input.everyRef_print R A _
  | converted c => exact RawRow.everyRefCells_insert hrow (c.input.everyRef_print R A (c.revert x))
  | ignored d => exact hrow

theorem Members.everyRef_print : (ms : Members) → (n : Naming) → {x : ms.El} → ms.EveryRef R A x →
    {row : RawRow} → Value.EveryRefCells R A row → Value.EveryRefCells R A (ms.print n x row)
  | .nil, _, _, _, _, hrow => hrow
  | .cons info t rest, n, _, h, _, hrow =>
    rest.everyRef_print n h.2 (t.everyRef_print info.name n h.1 hrow)

end

end Printed

/-! ### Types without references -/

section RefFree

variable (R : TargetRef → Prop) (A : AssetRef → Prop)

theorem CellType.refsHere_of_isRefFree (t : CellType) (x : t.El) (h : t.IsRefFree) :
    t.RefsHere R A x := by
  cases t <;> trivial

/-- Whatever is asked of references, a value of a type without references has it. -/
theorem CellType.everyRef_of_refFree {t : CellType} (h : t.RefFree) (x : t.El) :
    t.EveryRef R A x :=
  t.every_of_all (CellType.refsHere_of_isRefFree R A) (fun _ _ _ => trivial) h x

theorem MemberType.everyRef_of_refFree {t : MemberType}
    (h : t.All CellType.IsRefFree fun _ => True) (x : t.El) : t.EveryRef R A x :=
  t.every_of_all (CellType.refsHere_of_isRefFree R A) (fun _ _ _ => trivial) h x

/-- A value of a type without references prints to a value without references. -/
theorem CellType.everyRef_print_of_refFree {t : CellType} (h : t.RefFree) (n : Naming) (x : t.El) :
    (t.print n x).EveryRef R A :=
  t.everyRef_print n (CellType.everyRef_of_refFree R A h x)

end RefFree

/-! ### What linking leaves alone -/

/-- Every reference goes on to name the same row or asset. -/
structure RefMap.KeepsNames (f : RefMap) : Prop where
  key : ∀ target r, (f.row target r).key = r.key
  path : ∀ a, (f.asset a).path = a.path
  sub : ∀ a, (f.asset a).sub = a.sub

/-- A value, or what is read back from the value that it prints to when the references in there are
resolved in another way. -/
def CellType.ResolvedAs (t : CellType) (x y : t.El) : Prop :=
  x = y ∨ ¬ (t.print .pascal x).EveryRef (fun _ => False) (fun _ => False) ∧
    ∃ f : RefMap, f.KeepsNames ∧ t.read .pascal ((t.print .pascal x).mapRefs f) = .ok y

mutual

/-- The value of a member with the references in its leaves resolved in another way. -/
def MemberType.ResolvedAs : (t : MemberType) → t.El → t.El → Prop
  | .cell t => t.ResolvedAs
  | .rows form _ ms _ => fun xs ys => List.Forall₂ ms.ResolvedAs (form.items xs) (form.items ys)
  | .converted _ => fun x y => x = y
  | .ignored _ => fun x y => x = y

/-- A row with the references in its leaves resolved in another way. -/
def Members.ResolvedAs : (ms : Members) → ms.El → ms.El → Prop
  | .nil => fun _ _ => True
  | .cons _ t rest => fun x y => t.ResolvedAs x.1 y.1 ∧ rest.ResolvedAs x.2 y.2

end

/-- The id of a row stays when references in the row are resolved in another way. -/
def TableType.ResolutionBlind (t : TableType) : Prop :=
  ∀ x y : t.Row, t.record.members.ResolvedAs x y → t.getId x = t.getId y

section Resolved

variable (l : Linker)

/-- A value that prints without references is not rewritten. -/
theorem Linker.rewrite_of_everyRef_false {α : Type} {print : α → Value}
    {read : Value → Except CellError α} {x : α}
    (h : (print x).EveryRef (fun _ => False) (fun _ => False)) : l.rewrite print read x = x := by
  rw [rewrite, link_of_everyRef_false _ h]
  exact if_neg Bool.false_ne_true

theorem RowsForm.map_congr {α : Type} {form : RowsForm} {xs : form.Holder α} {f g : α → α}
    (h : ∀ x ∈ form.items xs, f x = g x) : form.map f xs = form.map g xs := by
  refine RowsForm.eq_of_items ?_
  rw [RowsForm.items_map, RowsForm.items_map]
  exact List.map_congr_left h

theorem RowsForm.map_eq_self {α : Type} {form : RowsForm} {xs : form.Holder α} {f : α → α}
    (h : ∀ x ∈ form.items xs, f x = x) : form.map f xs = xs := by
  refine RowsForm.eq_of_items ?_
  rw [RowsForm.items_map]
  exact TypedSheets.map_eq_self h

theorem RowsForm.forall₂_items_map {α : Type} {R : α → α → Prop} {form : RowsForm} {f : α → α}
    {xs : form.Holder α} (h : ∀ x, R x (f x)) :
    List.Forall₂ R (form.items xs) (form.items (form.map f xs)) := by
  rw [items_map, List.forall₂_map_right_iff, List.forall₂_same]
  exact fun x _ => h x

theorem Linker.linkedAsset_same (a : AssetRef) :
    a.path = (l.linkedAsset a).path ∧ a.sub = (l.linkedAsset a).sub := by
  rw [linkedAsset]
  split <;> exact ⟨rfl, rfl⟩

/-- A linker leaves the keys and paths of references. -/
theorem Linker.keepsNames_refMap : l.refMap.KeepsNames :=
  ⟨fun _ _ => rfl, fun a => (l.linkedAsset_same a).1.symm, fun a => (l.linkedAsset_same a).2.symm⟩

theorem Linker.rewrite_eq_or {α : Type} (print : α → Value) (read : Value → Except CellError α)
    (x : α) : l.rewrite print read x = x ∨
      read ((print x).mapRefs l.refMap) = .ok (l.rewrite print read x) := by
  rw [rewrite]
  split
  · cases h : read ((print x).mapRefs l.refMap) with
    | error e => exact Or.inl rfl
    | ok y => exact Or.inr rfl
  · exact Or.inl rfl

theorem CellType.resolvedAs_rewrite (t : CellType) (x : t.El) :
    t.ResolvedAs x (l.rewrite (t.print .pascal) (t.read .pascal) x) := by
  by_cases hplain : (t.print .pascal x).EveryRef (fun _ => False) (fun _ => False)
  · exact Or.inl (l.rewrite_of_everyRef_false hplain).symm
  · rcases l.rewrite_eq_or (t.print .pascal) (t.read .pascal) x with hsame | hread
    · exact Or.inl hsame.symm
    · exact Or.inr ⟨hplain, l.refMap, l.keepsNames_refMap, hread⟩

mutual

theorem MemberType.resolvedAs_relinked (d : RecordDecl) (info : MemberInfo) : (t : MemberType) →
    (x : t.El) → t.ResolvedAs x (t.relinked l d info x)
  | .cell t, x => by
    simp only [MemberType.relinked]
    split
    · exact t.resolvedAs_rewrite l x
    · exact Or.inl rfl
  | .rows _ head ms _, _ =>
    RowsForm.forall₂_items_map fun y => ms.resolvedAs_relinked (head.decl ms) y
  | .converted _, _ => rfl
  | .ignored _, _ => rfl

/-- Linking a row resolves references in it in another way, and does nothing else to it. -/
theorem Members.resolvedAs_relinked (d : RecordDecl) : (ms : Members) → (x : ms.El) →
    ms.ResolvedAs x (ms.relinked l d x)
  | .nil, _ => trivial
  | .cons info t rest, x =>
    ⟨t.resolvedAs_relinked d info x.1, rest.resolvedAs_relinked d x.2⟩

end

/-- Linking a row leaves its key. -/
theorem TableType.ResolutionBlind.key_relinked {t : TableType} (h : t.ResolutionBlind)
    (row : t.Row) : t.key (t.record.members.relinked l t.record.decl row) = t.key row := by
  rw [TableType.key, TableType.key, h _ _ (t.record.members.resolvedAs_relinked l _ row)]

end Resolved

/-! ### Ids that are told by plain members -/

section Plain

/-- Two values of a cell type differ at most in what a reference is resolved to. What holds
references in its parts may differ at will. -/
def CellType.AgreePlain : (t : CellType) → t.El → t.El → Prop
  | .sheetRef _, r, r' => r.key = r'.key
  | .assetRef, a, a' => a.path = a'.path ∧ a.sub = a'.sub
  | t, x, y => t.RefFree → x = y

/-- Two values of a member differ at most in what references are resolved to. -/
def MemberType.AgreePlain : (t : MemberType) → t.El → t.El → Prop
  | .cell t, x, y => t.AgreePlain x y
  | .rows _ _ ms _, xs, ys => ms.RefFree → xs = ys
  | .converted _, y, y' => y = y'
  | .ignored _, y, y' => y = y'

/-- Two rows differ at most in what references are resolved to, apart from members that hold
references in their parts. -/
def Members.AgreePlain : (ms : Members) → ms.El → ms.El → Prop
  | .nil, _, _ => True
  | .cons _ t rest, x, y => t.AgreePlain x.1 y.1 ∧ rest.AgreePlain x.2 y.2

/-- The id of a row is told by its plain members and by the names in its references. -/
def TableType.PlainId (t : TableType) : Prop :=
  ∀ x y : t.Row, t.record.members.AgreePlain x y → t.getId x = t.getId y

theorem CellType.ResolvedAs.eq_of_refFree {t : CellType} {x y : t.El} (h : t.ResolvedAs x y)
    (hfree : t.RefFree) : x = y :=
  h.resolve_right fun hread => hread.1 (CellType.everyRef_print_of_refFree _ _ hfree .pascal x)

mutual

theorem MemberType.eq_of_resolvedAs : (t : MemberType) →
    t.All CellType.IsRefFree (fun _ => True) → {x y : t.El} → t.ResolvedAs x y → x = y
  | .cell _, hfree, _, _, h => CellType.ResolvedAs.eq_of_refFree h hfree.2
  | .rows _ _ ms _, hfree, _, _, h => RowsForm.eq_of_items
    (List.forall₂_eq_eq_eq ▸ h.imp fun _ _ => ms.eq_of_resolvedAs hfree.2)
  | .converted _, _, _, _, h => h
  | .ignored _, _, _, _, h => h

/-- In a row without references there is nothing to resolve. -/
theorem Members.eq_of_resolvedAs : (ms : Members) → ms.RefFree → {x y : ms.El} →
    ms.ResolvedAs x y → x = y
  | .nil, _, _, _, _ => rfl
  | .cons _ t rest, hfree, _, _, h =>
    Prod.ext (t.eq_of_resolvedAs hfree.1 h.1) (rest.eq_of_resolvedAs hfree.2 h.2)

end

theorem CellType.ResolvedAs.agreePlain {t : CellType} {x y : t.El} (h : t.ResolvedAs x y) :
    t.AgreePlain x y := by
  cases t with
  | sheetRef target =>
    rcases h with rfl | ⟨-, f, hf, hread⟩
    · rfl
    · change SheetRef.read target (.sheetRef ⟨target, f.row target x⟩) = .ok y at hread
      rw [SheetRef.read, if_pos (beq_self_eq_true target)] at hread
      cases hread
      exact (hf.key target x).symm
  | assetRef =>
    rcases h with rfl | ⟨-, f, hf, hread⟩
    · exact ⟨rfl, rfl⟩
    · have hasset : f.asset x = y := Except.ok.inj hread
      rw [← hasset]
      exact ⟨(hf.path x).symm, (hf.sub x).symm⟩
  | _ => exact h.eq_of_refFree

theorem Members.agreePlain_of_resolvedAs : (ms : Members) → {x y : ms.El} →
    ms.ResolvedAs x y → ms.AgreePlain x y
  | .nil, _, _, _ => trivial
  | .cons _ t rest, x, y, h => by
    refine ⟨?_, rest.agreePlain_of_resolvedAs h.2⟩
    cases t with
    | cell t => exact CellType.ResolvedAs.agreePlain h.1
    | rows form head ms via =>
      exact fun hfree => (MemberType.rows form head ms via).eq_of_resolvedAs ⟨trivial, hfree⟩ h.1
    | converted c => exact h.1
    | ignored d => exact h.1

/-- An id that is told by the plain members of a row stays. -/
theorem TableType.PlainId.resolutionBlind {t : TableType} (h : t.PlainId) : t.ResolutionBlind :=
  fun x y hxy => h x y (t.record.members.agreePlain_of_resolvedAs hxy)

end Plain

/-! ### What every part keeps -/

/-- Rewriting a cell of such types keeps a property of all its parts. -/
def Linker.Keeps (l : Linker) (PT : CellType → Prop) (P : (t : CellType) → t.El → Prop) : Prop :=
  ∀ (t : CellType) (x : t.El), t.All PT (fun _ => True) → t.Every P (fun _ _ => True) x →
    t.Every P (fun _ _ => True) (l.rewrite (t.print .pascal) (t.read .pascal) x)

section Every

variable {l : Linker} {PT : CellType → Prop} {P : (t : CellType) → t.El → Prop}

mutual

/-- What rewriting a cell keeps at every part, linking keeps at every part of a member. -/
theorem MemberType.every_relinked (hl : l.Keeps PT P) (d : RecordDecl) (info : MemberInfo) :
    (t : MemberType) → t.All PT (fun _ => True) → {x : t.El} → t.Every P (fun _ _ => True) x →
    t.Every P (fun _ _ => True) (t.relinked l d info x)
  | .cell t, ht, x, h => by
    refine ⟨trivial, ?_⟩
    simp only [MemberType.relinked]
    split
    · exact hl t x ht.2 h.2
    · exact h.2
  | .rows form head ms _, ht, xs, h => by
    refine ⟨trivial, fun y hy => ?_⟩
    obtain ⟨z, hz, rfl⟩ := form.exists_of_mem_items_map hy
    exact ms.every_relinked hl (head.decl ms) ht.2 (h.2 z hz)
  | .converted _, _, _, h => h
  | .ignored _, _, _, h => h

/-- What rewriting a cell keeps at every part, linking keeps at every part of a row. -/
theorem Members.every_relinked (hl : l.Keeps PT P) (d : RecordDecl) : (ms : Members) →
    ms.All PT (fun _ => True) → {x : ms.El} → ms.Every P (fun _ _ => True) x →
    ms.Every P (fun _ _ => True) (ms.relinked l d x)
  | .nil, _, _, _ => trivial
  | .cons info t rest, ht, _, h =>
    ⟨t.every_relinked hl d info ht.1 h.1, rest.every_relinked hl d ht.2 h.2⟩

end

end Every

section Kept

variable (l : Linker)

theorem CellType.canonical_rewrite {t : CellType} {n : Naming} {x : t.El} (ht : t.StaticKeys)
    (h : t.Canonical x) : t.Canonical (l.rewrite (t.print n) (t.read n) x) := by
  rcases l.rewrite_eq_or (t.print n) (t.read n) x with heq | hread
  · rwa [heq]
  · exact CellType.canonical_of_read ht hread

/-- The sets and maps in a row stay sorted. -/
theorem Members.canonical_relinked (d : RecordDecl) (ms : Members) (hms : ms.StaticKeys) {x : ms.El}
    (h : ms.Canonical x) : ms.Canonical (ms.relinked l d x) :=
  ms.every_relinked (fun _ _ ht hx => CellType.canonical_rewrite l ht hx) d hms h

variable {R : TargetRef → Prop} {A : AssetRef → Prop}
  (hR : ∀ target key, R ⟨target, ⟨key, none⟩⟩) (hA : ∀ path sub, A ⟨path, sub, none⟩)
  (hlinkedR : ∀ r, R (l.refMap.targetRef r)) (hlinkedA : ∀ a, A (l.linkedAsset a))

include hR hA hlinkedR hlinkedA

theorem CellType.everyRef_rewrite {t : CellType} {n : Naming} {x : t.El} (h : t.EveryRef R A x) :
    t.EveryRef R A (l.rewrite (t.print n) (t.read n) x) := by
  rcases l.rewrite_eq_or (t.print n) (t.read n) x with heq | hread
  · rwa [heq]
  · exact CellType.everyRef_of_read hR hA
      (Value.everyRef_mapRefs _ (Value.everyRef_of_forall hlinkedR hlinkedA _)) hread

/-- What unresolved references have, and what the linker makes of any reference has, the references
in a row keep. -/
theorem Members.everyRef_relinked (d : RecordDecl) (ms : Members) {x : ms.El}
    (h : ms.EveryRef R A x) : ms.EveryRef R A (ms.relinked l d x) :=
  ms.every_relinked (fun _ _ _ hx => CellType.everyRef_rewrite l hR hA hlinkedR hlinkedA hx) d
    ms.all_true h

end Kept

/-! ### All references are replaced -/

/-- Members whose values read back from what they print to, and whose declared types tell where
references are. -/
structure Members.Lawful (ms : Members) : Prop where
  /-- Keys of sets and maps have an order. -/
  keys : ms.StaticKeys
  /-- Converters read back what they write. -/
  converters : ms.Reverting
  /-- No two members of a record share a column. -/
  columns : ms.DistinctColumns
  /-- No record is named like a primitive type, which a schema would take it for. -/
  names : ms.OwnNames

section Lawful

variable (l : Linker)

/-- A cell that reads back what it prints is rewritten to itself with its references replaced. -/
theorem CellType.rewrite_eq_mapRefs {t : CellType} (hkeys : t.StaticKeys) (hr : t.Reverting)
    (hd : t.DistinctColumns) (n' : Naming) {n : Naming} {v : Value} {x : t.El}
    (h : t.read n v = .ok x) : l.rewrite (t.print n') (t.read n') x = t.mapRefs l.refMap x := by
  have hread := t.read_print_mapRefs l.refMap n' hr hd h
  rw [Linker.rewrite]
  split
  · rw [hread]
    rfl
  · next hsame =>
    -- what is printed stays, so what is read from it stays as well
    rw [Linker.link_changed_eq_false _ (Bool.eq_false_iff.mpr hsame),
      CellType.read_print hkeys hr hd n' h] at hread
    exact Except.ok.inj hread

theorem CellType.mapRefs_of_refFree {t : CellType} (f : RefMap) (hkeys : t.StaticKeys)
    (h : t.RefFree) {x : t.El} (hx : t.Canonical x) : t.mapRefs f x = x :=
  t.mapRefs_eq_self hkeys hx (CellType.everyRef_of_refFree _ _ h x)

/-- Linking a cell that was read replaces all its references, whether it is linked or left out. -/
theorem CellType.relinked_eq_mapRefs (d : RecordDecl) (info : MemberInfo) {t : CellType}
    (hkeys : t.StaticKeys) (hr : t.Reverting) (hd : t.DistinctColumns) (hnames : t.OwnNames)
    {n : Naming} {v : Value} {x : t.El} (h : t.read n v = .ok x) :
    (MemberType.cell t).relinked l d info x = t.mapRefs l.refMap x := by
  rw [MemberType.relinked]
  split
  · exact CellType.rewrite_eq_mapRefs l hkeys hr hd .pascal h
  · next hskip =>
    have hfree := CellType.refFree_of_field hnames (Bool.eq_false_iff.mpr hskip)
    exact (CellType.mapRefs_of_refFree _ hkeys hfree (CellType.canonical_of_read hkeys h)).symm

mutual

/-- Linking a member that was read replaces all its references. -/
theorem MemberType.relinked_eq_mapRefs (d : RecordDecl) (info : MemberInfo) : (t : MemberType) →
    {name : String} → {n : Naming} → {row : RawRow} → {x : t.El} →
    t.All CellType.HasStaticKeys (fun _ => True) → t.All (fun _ => True) MemberType.Reverts →
    t.All CellType.HasDistinctColumns MemberType.HasDistinctColumns →
    t.All CellType.HasOwnName (fun _ => True) → t.All (fun _ => True) MemberType.HasPlainRows →
    t.read name n row = .ok x → t.relinked l d info x = t.mapRefs l.refMap x
  | .cell _, _, _, _, _, hkeys, hr, hd, hnames, _, h =>
    CellType.relinked_eq_mapRefs l d info hkeys.2 hr.2 hd.2 hnames.2 (mapError_eq_ok_iff.mp h)
  | .rows form head ms none, _, _, _, xs, hkeys, hr, hd, hnames, hplain, h => by
    refine RowsForm.map_congr fun y hy => ?_
    obtain ⟨_, _, hread⟩ := form.exists_of_mem_read (mapError_eq_ok_iff.mp h) hy
    obtain ⟨_, _, hread⟩ := Value.partClosed_true.of_readRecord trivial hread
    exact ms.relinked_eq_mapRefs (head.decl ms) hkeys.2 hr.2 hd.2 hnames.2 hplain.2 hread
  | .rows _ _ _ (some _), _, _, _, _, _, _, _, _, hplain, _ => nomatch hplain.1
  | .converted _, _, _, _, _, _, _, _, _, _, _ => rfl
  | .ignored _, _, _, _, _, _, _, _, _, _, _ => rfl

/-- Linking a row that was read replaces all its references. -/
theorem Members.relinked_eq_mapRefs (d : RecordDecl) : (ms : Members) → {n : Naming} →
    {row : RawRow} → {x : ms.El} → ms.StaticKeys → ms.Reverting →
    ms.All CellType.HasDistinctColumns MemberType.HasDistinctColumns → ms.OwnNames →
    ms.PlainRows → ms.read n row = .ok x → ms.relinked l d x = ms.mapRefs l.refMap x
  | .nil, _, _, _, _, _, _, _, _, _ => rfl
  | .cons info t rest, _, _, _, hkeys, hr, hd, hnames, hplain, h => by
    obtain ⟨hfirst, hothers⟩ := Members.read_cons_eq_ok h
    exact Prod.ext (t.relinked_eq_mapRefs d info hkeys.1 hr.1 hd.1 hnames.1 hplain.1 hfirst)
      (rest.relinked_eq_mapRefs d hkeys.2 hr.2 hd.2 hnames.2 hplain.2 hothers)

end

section Unconverted

variable {R : TargetRef → Prop} {A : AssetRef → Prop}

mutual

theorem MemberType.everyUnconvertedRef_relinked (d : RecordDecl) (info : MemberInfo) :
    (t : MemberType) → {name : String} → {n : Naming} → {row : RawRow} → {x : t.El} →
    t.All CellType.HasStaticKeys (fun _ => True) → t.All (fun _ => True) MemberType.Reverts →
    t.All CellType.HasDistinctColumns MemberType.HasDistinctColumns →
    t.All CellType.HasOwnName (fun _ => True) → t.read name n row = .ok x →
    t.EveryRef (fun r => R (l.refMap.targetRef r)) (fun a => A (l.refMap.asset a)) x →
    t.EveryUnconvertedRef R A (t.relinked l d info x)
  | .cell t, _, _, _, _, hkeys, hr, hd, hnames, h, hx => by
    rw [CellType.relinked_eq_mapRefs l d info hkeys.2 hr.2 hd.2 hnames.2 (mapError_eq_ok_iff.mp h)]
    exact t.everyUnconvertedRef_mapRefs hx.2
  | .rows form head ms none, _, _, _, _, hkeys, hr, hd, hnames, h, hx => by
    intro y hy
    obtain ⟨z, hz, rfl⟩ := form.exists_of_mem_items_map hy
    obtain ⟨_, _, hread⟩ := form.exists_of_mem_read (mapError_eq_ok_iff.mp h) hz
    obtain ⟨_, _, hread⟩ := Value.partClosed_true.of_readRecord trivial hread
    exact ms.everyUnconvertedRef_relinked (head.decl ms) hkeys.2 hr.2 hd.2 hnames.2 hread
      (hx.2 z hz)
  | .rows _ _ _ (some _), _, _, _, _, _, _, _, _, _, _ => trivial
  | .converted _, _, _, _, _, _, _, _, _, _, _ => trivial
  | .ignored _, _, _, _, _, _, _, _, _, _, _ => trivial

/-- Every reference in a member without a converter of a linked row is what the linker has made of
one. -/
theorem Members.everyUnconvertedRef_relinked (d : RecordDecl) : (ms : Members) → {n : Naming} →
    {row : RawRow} → {x : ms.El} → ms.StaticKeys → ms.Reverting →
    ms.All CellType.HasDistinctColumns MemberType.HasDistinctColumns → ms.OwnNames →
    ms.read n row = .ok x →
    ms.EveryRef (fun r => R (l.refMap.targetRef r)) (fun a => A (l.refMap.asset a)) x →
    ms.EveryUnconvertedRef R A (ms.relinked l d x)
  | .nil, _, _, _, _, _, _, _, _, _ => trivial
  | .cons info t rest, _, _, _, hkeys, hr, hd, hnames, h, hx => by
    obtain ⟨hfirst, hothers⟩ := Members.read_cons_eq_ok h
    exact ⟨t.everyUnconvertedRef_relinked d info hkeys.1 hr.1 hd.1 hnames.1 hfirst hx.1,
      rest.everyUnconvertedRef_relinked d hkeys.2 hr.2 hd.2 hnames.2 hothers hx.2⟩

end

end Unconverted

/-- Linking a row that was read replaces all its references. -/
theorem Members.Lawful.relinked_eq_mapRefs {ms : Members} (hms : ms.Lawful) (hplain : ms.PlainRows)
    (d : RecordDecl) {n : Naming} {row : RawRow} {x : ms.El} (h : ms.read n row = .ok x) :
    ms.relinked l d x = ms.mapRefs l.refMap x :=
  ms.relinked_eq_mapRefs l d hms.keys hms.converters hms.columns.2 hms.names hplain h

end Lawful

end TypedSheets
