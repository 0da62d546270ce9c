import Mathlib.Data.List.Perm.Basic
import TypedSheets.Proofs.Link.InPlace
import TypedSheets.Proofs.Sorted

/-!
# References that stay unresolved

A linker reports each reference that it does not find. What it reports can be read off its outcome:
the references that are to something and still are not resolved. A typed value prints to a dynamic
one with the same such references. Only their order may differ, since the cells of a nested record
are sorted by column.

The errors of linking a row come leaf by leaf, in the order of the property tree, and those of a
leaf are what is missing in it once the row is linked. A leaf that is passed over because it cannot
hold references has nothing missing.

## Main definitions

* `Missing` — what an unresolved reference is to
* `Value.missing`, `CellType.missing` — what the references in dynamic and typed values miss
* `LeafMissing` — a leaf of a row and what the references in it miss
* `Members.missingLeaves` — the leaves of the members of a row
* `Arranges` — groups one after the other, each in some order

## Main results

* `Linker.link_errors` — a linker reports what is missing in its outcome
* `CellType.mapRefs_print` — references are replaced before printing or afterwards
* `CellType.missing_print` — printing neither loses nor adds an unresolved reference
* `Members.arranges_linkErrors` — the errors of linking a row are what is missing in the linked row
* `RecordType.map_place_missingLeaves` — the leaves are those of the property tree, in its order
-/

namespace TypedSheets

/-! ### What is missing -/

/-- What a reference is to that is to something and is not resolved. -/
inductive Missing where
  | row (target key : String)
  | asset (text : String)

/-- The error for what is missing at a site. -/
def Missing.error (site : ReferenceSite) : Missing → ReferenceError
  | .row target key => .notFound site target key
  | .asset text => .assetMissing site text

/-- What a reference to a row misses. -/
def TargetRef.missing (r : TargetRef) : List Missing :=
  if r.ref.isEmpty || r.ref.resolved.isSome then [] else [.row r.target r.ref.key]

/-- What a reference to an asset misses. -/
def AssetRef.missing (a : AssetRef) : List Missing :=
  if a.isEmpty || a.handle.isSome then [] else [.asset a.text]

namespace Value

mutual

/-- What the references in a dynamic value miss. -/
def missing : Value → List Missing
  | .sheetRef r => r.missing
  | .assetRef a => a.missing
  | .list items => missingItems items
  | .map entries => missingEntries entries
  | .record cells => missingCells cells
  | .null => []
  | .bool _ => []
  | .int _ => []
  | .float _ => []
  | .text _ => []

/-- What the references in the items of a list miss. -/
def missingItems : List Value → List Missing
  | [] => []
  | v :: rest => missing v ++ missingItems rest

/-- What the references in the entries of a map miss. -/
def missingEntries : List (Value × Value) → List Missing
  | [] => []
  | (k, v) :: rest => missing k ++ missing v ++ missingEntries rest

/-- What the references in the cells of a row miss. -/
def missingCells : List (String × Value) → List Missing
  | [] => []
  | (_, v) :: rest => missing v ++ missingCells rest

end

theorem missingItems_eq_flatMap (vs : List Value) : missingItems vs = vs.flatMap missing := by
  induction vs with
  | nil => rfl
  | cons v rest ih => rw [missingItems, ih, List.flatMap_cons]

theorem missingEntries_eq_flatMap (es : List (Value × Value)) :
    missingEntries es = es.flatMap fun e => e.1.missing ++ e.2.missing := by
  induction es with
  | nil => rfl
  | cons e rest ih => rw [missingEntries, ih, List.flatMap_cons]

theorem missingCells_eq_flatMap (cells : List (String × Value)) :
    missingCells cells = cells.flatMap fun c => c.2.missing := by
  induction cells with
  | nil => rfl
  | cons c rest ih => rw [missingCells, ih, List.flatMap_cons]

mutual

/-- Where no reference is, nothing is missing. -/
theorem missing_eq_nil : (v : Value) → v.EveryRef (fun _ => False) (fun _ => False) →
    v.missing = []
  | .sheetRef _, h => h.elim
  | .assetRef _, h => h.elim
  | .list items, h => missingItems_eq_nil items h
  | .map entries, h => missingEntries_eq_nil entries h
  | .record cells, h => missingCells_eq_nil cells h
  | .null, _ => rfl
  | .bool _, _ => rfl
  | .int _, _ => rfl
  | .float _, _ => rfl
  | .text _, _ => rfl

theorem missingItems_eq_nil : (vs : List Value) →
    EveryRefItems (fun _ => False) (fun _ => False) vs → missingItems vs = []
  | [], _ => rfl
  | v :: rest, h => by rw [missingItems, missing_eq_nil v h.1, missingItems_eq_nil rest h.2]; rfl

theorem missingEntries_eq_nil : (es : List (Value × Value)) →
    EveryRefEntries (fun _ => False) (fun _ => False) es → missingEntries es = []
  | [], _ => rfl
  | (k, v) :: rest, h => by
    rw [missingEntries, missing_eq_nil k h.1.1, missing_eq_nil v h.1.2,
      missingEntries_eq_nil rest h.2]
    rfl

theorem missingCells_eq_nil : (cells : List (String × Value)) →
    EveryRefCells (fun _ => False) (fun _ => False) cells → missingCells cells = []
  | [], _ => rfl
  | (_, v) :: rest, h => by
    rw [missingCells, missing_eq_nil v h.1, missingCells_eq_nil rest h.2]
    rfl

end

end Value

/-! ### What a linker reports -/

namespace Linker

variable (l : Linker) (site : ReferenceSite)

theorem linkRow_errors (r : TargetRef) :
    (l.linkRow site r).errors = (l.refMap.targetRef r).missing.map (Missing.error site) := by
  -- an empty reference is neither looked up nor reported
  have hmissing : (l.refMap.targetRef r).missing =
      if r.ref.isEmpty || (if r.ref.isEmpty then none else l.row r.target r.ref.key).isSome then []
      else [.row r.target r.ref.key] := rfl
  rw [hmissing, apply_ite (List.map (Missing.error site))]
  rfl

theorem linkAsset_errors (a : AssetRef) :
    (l.linkAsset site a).errors = (l.linkedAsset a).missing.map (Missing.error site) := by
  rw [linkAsset, linkedAsset]
  split
  · next hempty => simp [AssetRef.missing, hempty, Linked.same]
  · next hempty =>
    have hnext : ({ a with handle := l.asset a.path a.sub } : AssetRef).isEmpty = false :=
      Bool.eq_false_iff.mpr hempty
    simp only [AssetRef.missing, hnext, Bool.false_or]
    split <;> rfl

mutual

/-- A linker reports what is missing in the value that it makes, in the same order. -/
theorem link_errors : (v : Value) →
    (l.link site v).errors = (v.mapRefs l.refMap).missing.map (Missing.error site)
  | .sheetRef r => l.linkRow_errors site r
  | .assetRef a => l.linkAsset_errors site a
  | .list items => linkItems_errors items
  | .map entries => linkEntries_errors entries
  | .record cells => linkCells_errors cells
  | .null => rfl
  | .bool _ => rfl
  | .int _ => rfl
  | .float _ => rfl
  | .text _ => rfl

theorem linkItems_errors : (vs : List Value) → (l.linkItems site vs).errors =
    (Value.missingItems (Value.mapRefsItems l.refMap vs)).map (Missing.error site)
  | [] => rfl
  | v :: rest => by
    rw [Value.mapRefsItems, Value.missingItems, List.map_append, ← link_errors v,
      ← linkItems_errors rest]
    rfl

theorem linkEntries_errors : (es : List (Value × Value)) → (l.linkEntries site es).errors =
    (Value.missingEntries (Value.mapRefsEntries l.refMap es)).map (Missing.error site)
  | [] => rfl
  | (k, v) :: rest => by
    rw [Value.mapRefsEntries, Value.missingEntries, List.map_append, List.map_append,
      ← link_errors k, ← link_errors v, ← linkEntries_errors rest]
    rfl

theorem linkCells_errors : (cells : List (String × Value)) → (l.linkCells site cells).errors =
    (Value.missingCells (Value.mapRefsCells l.refMap cells)).map (Missing.error site)
  | [] => rfl
  | (name, v) :: rest => by
    rw [Value.mapRefsCells, Value.missingCells, List.map_append, ← link_errors v,
      ← linkCells_errors rest]
    rfl

end

end Linker

/-! ### Typed values -/

mutual

/-- What the references in a typed value miss. -/
def CellType.missing : (t : CellType) → t.El → List Missing
  | .scalar _ => fun _ => []
  | .option t => fun (x : Option t.El) => x.toList.flatMap t.missing
  | .sequence _ t => List.flatMap t.missing
  | .array t _ => fun xs => xs.val.flatMap t.missing
  | .set _ t => List.flatMap t.missing
  | .map _ _ k v => List.flatMap fun e => k.missing e.1 ++ v.missing e.2
  | .sheetRef target => fun r => TargetRef.missing ⟨target, r⟩
  | .assetRef => AssetRef.missing
  | .record _ ms => ms.missing
  | .any => Value.missing

/-- What the references in the value of a member miss. A converter shows none. -/
def MemberType.missing : (t : MemberType) → t.El → List Missing
  | .cell t => t.missing
  | .rows form _ ms none => fun xs => (form.items xs).flatMap ms.missing
  | .rows _ _ _ (some _) => fun _ => []
  | .converted _ => fun _ => []
  | .ignored _ => fun _ => []

/-- What the references in the values of members miss. -/
def Members.missing : (ms : Members) → ms.El → List Missing
  | .nil => fun _ => []
  | .cons _ t rest => fun x => t.missing x.1 ++ rest.missing x.2

end

section Print

/-! ### Printing and replacing references -/

theorem Value.mapRefsCells_insert (f : RefMap) (row : RawRow) (column : String) (v : Value) :
    Value.mapRefsCells f (row.insert column v) =
      RawRow.insert (Value.mapRefsCells f row) column (v.mapRefs f) := by
  induction row with
  | nil => rfl
  | cons c rest ih =>
    simp only [RawRow.insert] at ih ⊢
    rw [Entries.insert, Value.mapRefsCells, Entries.insert]
    split
    · rfl
    · rfl
    · rw [Value.mapRefsCells, ih]

mutual

/-- References are replaced before printing or afterwards. -/
theorem CellType.mapRefs_print (f : RefMap) : (t : CellType) → t.PlainRows → (n : Naming) →
    (x : t.El) → (t.print n x).mapRefs f = t.print n (t.mapInPlace f x)
  | .scalar s, _, _, x => s.mapRefs_print f x
  | .option _, _, _, none => rfl
  | .option t, hp, n, some y => t.mapRefs_print f hp.2 n y
  -- printing keeps the places of elements, and so does replacing in place
  | .sequence _ t, hp, n, xs => by
    refine (Value.mapRefs_list_map f (t.print n) xs).trans (congrArg Value.list ?_)
    exact (List.map_congr_left fun y _ => t.mapRefs_print f hp.2 n y).trans List.map_map.symm
  | .array t _, hp, n, xs => by
    refine (Value.mapRefs_list_map f (t.print n) xs.val).trans (congrArg Value.list ?_)
    exact (List.map_congr_left fun y _ => t.mapRefs_print f hp.2 n y).trans List.map_map.symm
  | .set _ t, hp, n, xs => by
    refine (Value.mapRefs_list_map f (t.print n) xs).trans (congrArg Value.list ?_)
    exact (List.map_congr_left fun y _ => t.mapRefs_print f hp.2 n y).trans List.map_map.symm
  | .map _ _ k v, hp, n, es => by
    refine (Value.mapRefs_map_map f (fun e => k.print n e.1) (fun e => v.print n e.2) es).trans
      (congrArg Value.map ?_)
    exact (List.map_congr_left fun e _ =>
      Prod.ext (k.mapRefs_print f hp.2.1 n e.1) (v.mapRefs_print f hp.2.2 n e.2)).trans
        List.map_map.symm
  | .sheetRef _, _, _, _ => rfl
  | .assetRef, _, _, _ => rfl
  | .record head ms, hp, n, x =>
    congrArg Value.record (ms.mapRefs_print f hp.2 (head.effectiveNaming n) x .empty)
  | .any, _, _, _ => rfl

theorem MemberType.mapRefs_print (f : RefMap) (t : MemberType)
    (hp : t.All (fun _ => True) MemberType.HasPlainRows) (name : String) (n : Naming)
    (x : t.El) (row : RawRow) : Value.mapRefsCells f (t.print name n x row) =
      t.print name n (t.mapInPlace f x) (Value.mapRefsCells f row) := by
  cases t with
  | cell t =>
    refine (Value.mapRefsCells_insert f row _ (t.print n x)).trans ?_
    rw [t.mapRefs_print f hp.2 n x]
    rfl
  | rows form head ms via =>
    obtain rfl : via = none := hp.1
    refine (Value.mapRefsCells_insert f row _ _).trans (congrArg (RawRow.insert _ _) ?_)
    refine (Value.mapRefs_list_map f _ _).trans (congrArg Value.list ?_)
    have hitems := form.items_map (ms.mapInPlace f) x
    refine (List.map_congr_left fun y _ => congrArg Value.record
      (ms.mapRefs_print f hp.2 (head.effectiveNaming n) y .empty)).trans ?_
    exact (List.map_map (f := ms.mapInPlace f)
      (g := fun y => Value.record (ms.print (head.effectiveNaming n) y .empty))).symm.trans
        (congrArg (List.map _) hitems.symm)
  | converted c =>
    refine (Value.mapRefsCells_insert f row _ _).trans (congrArg (RawRow.insert _ _) ?_)
    exact c.input.mapRefs_print f (c.revert x)
  | ignored d => rfl

theorem Members.mapRefs_print (f : RefMap) : (ms : Members) → ms.PlainRows → (n : Naming) →
    (x : ms.El) → (row : RawRow) → Value.mapRefsCells f (ms.print n x row) =
      ms.print n (ms.mapInPlace f x) (Value.mapRefsCells f row)
  | .nil, _, _, _, _ => rfl
  | .cons info t rest, hp, n, x, row => by
    have hrest := rest.mapRefs_print f hp.2 n x.2 (t.print info.name n x.1 row)
    rw [t.mapRefs_print f hp.1 info.name n x.1 row] at hrest
    exact hrest

end

/-! ### Printing loses no reference -/

theorem Value.missing_list_map {γ : Type} {g : γ → Value} {h : γ → List Missing} {ys : List γ}
    (hg : ∀ y ∈ ys, (g y).missing.Perm (h y)) :
    (Value.list (ys.map g)).missing.Perm (ys.flatMap h) := by
  rw [Value.missing, Value.missingItems_eq_flatMap, List.flatMap_map]
  exact List.Perm.flatMap_left ys hg

theorem Value.missing_map_map {γ : Type} {gk gv : γ → Value} {hk hv : γ → List Missing}
    {ys : List γ}
    (hg : ∀ y ∈ ys, (gk y).missing.Perm (hk y) ∧ (gv y).missing.Perm (hv y)) :
    (Value.map (ys.map fun y => (gk y, gv y))).missing.Perm
      (ys.flatMap fun y => hk y ++ hv y) := by
  rw [Value.missing, Value.missingEntries_eq_flatMap, List.flatMap_map]
  exact List.Perm.flatMap_left ys fun y hy => (hg y hy).1.append (hg y hy).2

/-- A cell in a column of its own adds what is missing in it. -/
theorem RawRow.missingCells_insert {row : RawRow} {column : String} (v : Value)
    (h : column ∉ row.map Prod.fst) :
    (Value.missingCells (row.insert column v)).Perm (v.missing ++ Value.missingCells row) := by
  have hperm : (row.insert column v).Perm ((column, v) :: row) := Entries.insert_perm h
  rw [Value.missingCells_eq_flatMap, Value.missingCells_eq_flatMap]
  exact hperm.flatMap_right fun c => c.2.missing

mutual

/-- A value prints to one with the same unresolved references, perhaps in another order: cells of
nested records are sorted by column. -/
theorem CellType.missing_print : (t : CellType) → t.DistinctColumns → (n : Naming) → (x : t.El) →
    (t.print n x).missing.Perm (t.missing x)
  | .scalar s, _, _, x => .of_eq (Value.missing_eq_nil _ (s.everyRef_print _ _ x))
  | .option _, _, _, none => .refl _
  | .option t, hd, n, some y =>
    (t.missing_print hd.2 n y).trans (.of_eq (List.append_nil _).symm)
  | .sequence _ t, hd, n, _ => Value.missing_list_map fun y _ => t.missing_print hd.2 n y
  | .array t _, hd, n, _ => Value.missing_list_map fun y _ => t.missing_print hd.2 n y
  | .set _ t, hd, n, _ => Value.missing_list_map fun y _ => t.missing_print hd.2 n y
  | .map _ _ k v, hd, n, _ => Value.missing_map_map fun e _ =>
    ⟨k.missing_print hd.2.1 n e.1, v.missing_print hd.2.2 n e.2⟩
  | .sheetRef _, _, _, _ => .refl _
  | .assetRef, _, _, _ => .refl _
  | .record head ms, hd, n, x => by
    -- the cells start from a row in which no column is taken
    have hcells := ms.missing_print hd (head.effectiveNaming n) x .empty
      fun _ _ => List.not_mem_nil
    exact hcells.trans (.of_eq (List.append_nil _))
  | .any, _, _, _ => .refl _

theorem MemberType.missing_print : (t : MemberType) →
    t.All CellType.HasDistinctColumns MemberType.HasDistinctColumns → (n : Naming) → (x : t.El) →
    (t.printCell n x).missing.Perm (t.missing x)
  | .cell t, hd, n, x => t.missing_print hd.2 n x
  | .rows form head ms (some c), _, _, xs =>
    .of_eq (Value.missing_eq_nil _ (c.input.everyRef_print _ _ _))
  | .rows form head ms none, hd, n, xs => Value.missing_list_map fun y _ => by
    have hcells := ms.missing_print hd (head.effectiveNaming n) y .empty
      fun _ _ => List.not_mem_nil
    exact hcells.trans (.of_eq (List.append_nil _))
  | .converted c, _, _, y =>
    .of_eq (Value.missing_eq_nil _ (c.input.everyRef_print _ _ (c.revert y)))
  | .ignored _, _, _, _ => .refl _

/-- The cells of members are missing what the members do, beside what was missing in the row. -/
theorem Members.missing_print : (ms : Members) → ms.DistinctColumns → (n : Naming) → (x : ms.El) →
    (row : RawRow) → (∀ name ∈ ms.dataNames, n.wireName name ∉ row.map Prod.fst) →
    (Value.missingCells (ms.print n x row)).Perm (ms.missing x ++ Value.missingCells row)
  | .nil, _, _, _, _, _ => .refl _
  | .cons info t rest, hd, n, x, row, hrow => by
    have hfirst := t.missing_print hd.2.1 n x.1
    change (Value.missingCells (rest.print n x.2 (t.print info.name n x.1 row))).Perm
      (t.missing x.1 ++ rest.missing x.2 ++ Value.missingCells row)
    rw [MemberType.print_eq]
    rw [Members.dataNames] at hrow
    cases ht : t.isData with
    | false =>
      -- a member without a column holds nothing that could be missing
      have hnone : t.missing x.1 = [] := by
        cases t with
        | ignored d => rfl
        | _ => cases ht
      rw [ht] at hrow
      rw [hnone]
      exact rest.missing_print hd.tail n x.2 row hrow
    | true =>
      rw [ht] at hrow
      have hnew : n.wireName info.name ∉ row.map Prod.fst := hrow _ List.mem_cons_self
      have hperm : (row.insert (n.wireName info.name) (t.printCell n x.1)).Perm
          ((n.wireName info.name, t.printCell n x.1) :: row) := Entries.insert_perm hnew
      -- the later members do not print to the column of this one either
      have hothers := rest.missing_print hd.tail n x.2
        (row.insert (n.wireName info.name) (t.printCell n x.1)) fun name hname => by
          rw [(hperm.map Prod.fst).mem_iff, List.map_cons, List.mem_cons, not_or]
          exact ⟨Members.wireName_ne_of_nodup (hd.1 n) ht name hname,
            hrow name (List.mem_cons_of_mem _ hname)⟩
      have hcells := RawRow.missingCells_insert (t.printCell n x.1) hnew
      rw [if_pos rfl, List.append_assoc]
      refine hothers.trans (((hcells.trans (hfirst.append_right _)).append_left _).trans ?_)
      rw [← List.append_assoc, ← List.append_assoc]
      exact List.perm_append_comm.append_right _

end

end Print

end TypedSheets

/-! ## Errors leaf by leaf -/

namespace TypedSheets

open PropertyNode (Site walkFrom liftSite)

/-! ### Groups in order -/

section Arranges

variable {α β : Type}

/-- The list is made of the groups one after the other, each of them in some order. -/
def Arranges (xs : List α) (groups : List (List α)) : Prop :=
  ∃ parts, List.Forall₂ List.Perm parts groups ∧ parts.flatten = xs

theorem arranges_nil : Arranges ([] : List α) [] := ⟨[], .nil, rfl⟩

theorem arranges_group {xs group : List α} (h : xs.Perm group) : Arranges xs [group] :=
  ⟨[xs], .cons h .nil, List.append_nil xs⟩

theorem Arranges.append {xs ys : List α} {groups more : List (List α)} (h : Arranges xs groups)
    (h' : Arranges ys more) : Arranges (xs ++ ys) (groups ++ more) := by
  obtain ⟨parts, hparts, rfl⟩ := h
  obtain ⟨others, hothers, rfl⟩ := h'
  exact ⟨parts ++ others, List.rel_append hparts hothers, List.flatten_append⟩

/-- The list is the groups put together, up to order. -/
theorem Arranges.perm {xs : List α} {groups : List (List α)} (h : Arranges xs groups) :
    xs.Perm groups.flatten := by
  obtain ⟨parts, hparts, rfl⟩ := h
  exact List.Perm.flatten_congr hparts

theorem arranges_flatMap {as : List β} {f : β → List α} {g : β → List (List α)}
    (h : ∀ a ∈ as, Arranges (f a) (g a)) : Arranges (as.flatMap f) (as.flatMap g) := by
  induction as with
  | nil => exact arranges_nil
  | cons a rest ih =>
    rw [List.flatMap_cons, List.flatMap_cons]
    exact (h a List.mem_cons_self).append (ih fun b hb => h b (List.mem_cons_of_mem a hb))

end Arranges

/-! ### Leaves -/

/-- A leaf of a row, and what the references in it miss. -/
structure LeafMissing where
  path : String
  indexes : List Nat
  missing : List Missing

namespace LeafMissing

/-- The path of the leaf and the indexes that lead to it. -/
def place (leaf : LeafMissing) : String × List Nat := (leaf.path, leaf.indexes)

/-- A leaf of an element of the list in a member, as a leaf of the row. -/
def below (parent : String) (i : Nat) (leaf : LeafMissing) : LeafMissing :=
  ⟨parent ++ "." ++ leaf.path, i :: leaf.indexes, leaf.missing⟩

/-- The errors for what is missing in a leaf; `site` says where a leaf stands. -/
def errors (site : String → List Nat → ReferenceSite) (leaf : LeafMissing) : List ReferenceError :=
  leaf.missing.map (Missing.error (site leaf.path leaf.indexes))

end LeafMissing

mutual

/-- The leaves of a member with what is missing in them. -/
def MemberType.missingLeaves (d : RecordDecl) (info : MemberInfo) :
    (t : MemberType) → t.El → List LeafMissing
  | .cell t => fun x =>
    [⟨(d.field (MemberType.decl info (.cell t))).propertyName, [], t.missing x⟩]
  | .rows form head ms via => fun xs =>
    let property := (d.field (MemberType.decl info (.rows form head ms via))).propertyName
    (form.items xs).zipIdx.flatMap fun p =>
      (ms.missingLeaves (head.decl ms) p.1).map (LeafMissing.below property p.2)
  | .converted c => fun _ =>
    [⟨(d.field (MemberType.decl info (.converted c))).propertyName, [], []⟩]
  | .ignored _ => fun _ => []

/-- The leaves of members with what is missing in them. -/
def Members.missingLeaves (d : RecordDecl) : (ms : Members) → ms.El → List LeafMissing
  | .nil => fun _ => []
  | .cons info t rest => fun x => t.missingLeaves d info x.1 ++ rest.missingLeaves d x.2

end

/-- The leaves of a row with what is missing in them. -/
def RecordType.missingLeaves (r : RecordType) (row : r.Row) : List LeafMissing :=
  r.members.missingLeaves r.decl row

section Places

/-- Where a leaf is found in a property tree. -/
def sitePlace {ρ : Type} (s : Site ρ) : String × List Nat := (s.1.path, s.2)

theorem map_place_below {ρ α : Type} (e : Elements ρ α) (parent : String) (i : Nat)
    {leaves : List LeafMissing} {sites : List (Site α)}
    (h : leaves.map LeafMissing.place = sites.map sitePlace) :
    (leaves.map (LeafMissing.below parent i)).map LeafMissing.place =
      (sites.map (liftSite e parent i)).map sitePlace := by
  have hbelow : ∀ leaf : LeafMissing, (leaf.below parent i).place =
      (parent ++ "." ++ leaf.place.1, i :: leaf.place.2) := fun _ => rfl
  have hlift : ∀ s : Site α, sitePlace (liftSite e parent i s) =
      (parent ++ "." ++ (sitePlace s).1, i :: (sitePlace s).2) := by
    intro s
    rw [sitePlace, liftSite, PropertyNode.path_lift]
    rfl
  have hmap := congrArg (List.map fun q : String × List Nat => (parent ++ "." ++ q.1, i :: q.2)) h
  simpa only [List.map_map, Function.comp_def, hbelow, hlift] using hmap

mutual

theorem MemberType.map_place_missingLeaves {ρ : Type} (d : RecordDecl) (info : MemberInfo) :
    (t : MemberType) → (len : Lens ρ t.El) → (row : ρ) →
    (t.missingLeaves d info (len.get row)).map LeafMissing.place =
      (walkFrom row ((t.nodes d info len).map fun n => (n, []))).map sitePlace
  | .cell t, len, row => by
    rw [MemberType.nodes, List.map_singleton, PropertyNode.walkFrom_leaf row rfl]
    rfl
  | .rows form head ms _, len, row => by
    rw [MemberType.nodes, List.map_singleton, PropertyNode.walkFrom_elements, List.map_flatMap]
    simp only [MemberType.missingLeaves, List.map_flatMap]
    exact List.flatMap_congr fun p _ => map_place_below _ _ p.2
      (ms.map_place_missingLeaves (head.decl ms) Lens.whole p.1)
  | .converted c, len, row => by
    rw [MemberType.nodes, List.map_singleton, PropertyNode.walkFrom_leaf row rfl]
    rfl
  | .ignored _, _, row => by
    rw [MemberType.nodes, List.map_nil, PropertyNode.walkFrom_nil]
    rfl

theorem Members.map_place_missingLeaves {ρ : Type} (d : RecordDecl) : (ms : Members) →
    (len : Lens ρ ms.El) → (row : ρ) →
    (ms.missingLeaves d (len.get row)).map LeafMissing.place =
      (walkFrom row ((ms.nodes d len).map fun n => (n, []))).map sitePlace
  | .nil, _, row => by
    rw [Members.nodes, List.map_nil, PropertyNode.walkFrom_nil]
    rfl
  | .cons info t rest, len, row => by
    have hfirst := t.map_place_missingLeaves d info len.first row
    have hothers := rest.map_place_missingLeaves d len.second row
    rw [Members.nodes, List.map_append, PropertyNode.walkFrom_append, List.map_append, ← hfirst,
      ← hothers]
    exact List.map_append

end

/-- The leaves of a row are those that its property tree is walked through, in the same order. -/
theorem RecordType.map_place_missingLeaves (r : RecordType) (row : r.Row) :
    (r.missingLeaves row).map LeafMissing.place = (r.properties.walk row).map sitePlace := by
  rw [PropertyNode.walk, RecordType.properties, PropertyNode.walkFrom_root]
  exact r.members.map_place_missingLeaves r.decl Lens.whole row

end Places

/-! ### The errors of a row -/

section Errors

variable (l : Linker)

/-- In a value of a type without references nothing is missing. -/
theorem CellType.missing_of_refFree {t : CellType} (hd : t.DistinctColumns) (h : t.RefFree)
    (x : t.El) : t.missing x = [] := by
  have hprint := t.missing_print hd .pascal x
  rw [Value.missing_eq_nil _ (CellType.everyRef_print_of_refFree _ _ h .pascal x)] at hprint
  exact List.nil_perm.mp hprint

mutual

/-- The errors of linking a member are what is missing in it afterwards. -/
theorem MemberType.arranges_linkErrors (d : RecordDecl) (info : MemberInfo)
    (place : String → List Nat → ReferenceSite) : (t : MemberType) → {name : String} →
    {n : Naming} → {row : RawRow} → {x : t.El} →
    t.All CellType.HasStaticKeys (fun _ => True) → t.All (fun _ => True) MemberType.Reverts →
    t.All CellType.HasDistinctColumns MemberType.HasDistinctColumns →
    t.All CellType.HasOwnName (fun _ => True) → t.All (fun _ => True) MemberType.HasPlainRows →
    t.read name n row = .ok x → t.Unresolved x →
    Arranges (t.linkErrors l d info place x)
      ((t.missingLeaves d info (t.relinked l d info x)).map (LeafMissing.errors place))
  | .cell t, _, _, _, x, hkeys, hr, hd, hnames, hp, h, hx => by
    refine arranges_group ?_
    simp only [MemberType.linkErrors, MemberType.relinked]
    split
    · have hplace := CellType.rewrite_eq_mapInPlace l hkeys.2 hr.2 hd.2 hp.2 .pascal
        (mapError_eq_ok_iff.mp h) hx.2
      -- errors come from the printed cell, and that misses what the linked one does
      have hprint := t.missing_print hd.2 .pascal (t.mapInPlace l.refMap x)
      rw [← t.mapRefs_print l.refMap hp.2 .pascal x, ← hplace] at hprint
      rw [Linker.link_errors]
      exact hprint.map _
    · next hskip =>
      -- a leaf that is passed over cannot hold a reference
      have hfree := CellType.refFree_of_field hnames.2 (Bool.eq_false_iff.mpr hskip)
      exact .of_eq (congrArg (List.map _) (CellType.missing_of_refFree hd.2 hfree x).symm)
  | .rows _ _ _ (some _), _, _, _, _, _, _, _, _, hplain, _, _ => nomatch hplain.1
  | .rows form head ms none, _, _, _, xs, hkeys, hr, hd, hnames, hplain, h, hx => by
    have hitems := form.items_map (ms.relinked l (head.decl ms)) xs
    simp only [MemberType.linkErrors, MemberType.missingLeaves, MemberType.relinked, hitems,
      List.zipIdx_map, List.flatMap_map, List.map_flatMap]
    refine arranges_flatMap fun p hp => ?_
    have hy : p.1 ∈ form.items xs := List.fst_mem_of_mem_zipIdx hp
    obtain ⟨_, _, hread⟩ := form.exists_of_mem_read (mapError_eq_ok_iff.mp h) hy
    obtain ⟨_, _, hread⟩ := Value.partClosed_true.of_readRecord trivial hread
    rw [List.map_map]
    exact ms.arranges_linkErrors (head.decl ms) _ hkeys.2 hr.2 hd.2 hnames.2 hplain.2 hread
      (hx.2 p.1 hy)
  | .converted _, _, _, _, _, _, _, _, _, _, _, _ => arranges_group (.refl _)
  | .ignored _, _, _, _, _, _, _, _, _, _, _, _ => arranges_nil

/-- The errors of linking a row come leaf by leaf, and are what is missing in the linked row. -/
theorem Members.arranges_linkErrors (d : RecordDecl) (place : String → List Nat → ReferenceSite) :
    (ms : Members) → {n : Naming} → {row : RawRow} → {x : ms.El} → ms.StaticKeys → ms.Reverting →
    ms.All CellType.HasDistinctColumns MemberType.HasDistinctColumns → ms.OwnNames →
    ms.PlainRows → ms.read n row = .ok x → ms.Unresolved x →
    Arranges (ms.linkErrors l d place x)
      ((ms.missingLeaves d (ms.relinked l d x)).map (LeafMissing.errors place))
  | .nil, _, _, _, _, _, _, _, _, _, _ => arranges_nil
  | .cons info t rest, _, _, _, hkeys, hr, hd, hnames, hp, h, hx => by
    obtain ⟨hfirst, hothers⟩ := Members.read_cons_eq_ok h
    have happend := (t.arranges_linkErrors d info place hkeys.1 hr.1 hd.1 hnames.1 hp.1 hfirst
      hx.1).append (rest.arranges_linkErrors d place hkeys.2 hr.2 hd.2 hnames.2 hp.2 hothers hx.2)
    rw [← List.map_append] at happend
    exact happend

end

end Errors

end TypedSheets
