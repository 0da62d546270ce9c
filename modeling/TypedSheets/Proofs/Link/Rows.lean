import TypedSheets.Link.Table
import TypedSheets.Proofs.Link.Linker
import TypedSheets.Proofs.Property.Walk

/-!
# Linking rows

The references of a row are linked leaf by leaf, through the property tree. Put in terms of the
types of its members, every cell that may hold references is printed, linked and read again, and
the rows of a vertical member are linked one by one. This holds for every row and linker: whether
the cells read back at all is another question.

## Main definitions

* `Linker.linkLeaf`, `Linker.linkLeaves` — leaves linked one after the other
* `Members.relinked` — the members of a row with their references linked
* `Members.linkErrors` — the references of members that are not found

## Main results

* `Members.linkLeaves_nodes` — linking the leaves of members links the members
* `Table.linkRow_eq` — linking a row links its members
-/

namespace TypedSheets

open PropertyNode (Site walkFrom liftSite)

/-! ### Leaves -/

namespace Linker

variable {ρ α : Type} (l : Linker) (place : String → List Nat → ReferenceSite)

/-- The row with one leaf linked, and the errors; `place` says where a leaf stands. -/
def linkLeaf (row : ρ) (s : Site ρ) : ρ × List ReferenceError :=
  match (s.1.get row s.2).toOption with
  | none => (row, [])
  | some v =>
    let linked := l.link (place s.1.path s.2) v
    (if linked.changed then (s.1.set row s.2 linked.value).toOption.getD row else row,
      linked.errors)

/-- The row with leaves linked, one after the other. -/
def linkLeaves (row : ρ) : List (Site ρ) → ρ × List ReferenceError
  | [] => (row, [])
  | s :: rest =>
    let first := l.linkLeaf place row s
    let others := linkLeaves first.1 rest
    (others.1, first.2 ++ others.2)

theorem linkLeaves_append (row : ρ) (xs ys : List (Site ρ)) :
    l.linkLeaves place row (xs ++ ys) =
      ((l.linkLeaves place (l.linkLeaves place row xs).1 ys).1,
        (l.linkLeaves place row xs).2 ++
          (l.linkLeaves place (l.linkLeaves place row xs).1 ys).2) := by
  induction xs generalizing row with
  | nil => rfl
  | cons s rest ih => simp only [List.cons_append, linkLeaves, ih, List.append_assoc]

theorem linkLeaves_singleton (row : ρ) (s : Site ρ) :
    l.linkLeaves place row [s] = l.linkLeaf place row s :=
  Prod.ext rfl (List.append_nil _)

variable {e : Elements ρ α} (he : e.Lawful) {i : Nat}

include he in
theorem linkLeaf_lift {row : ρ} {x : α} (hx : (e.items row)[i]? = some x) (parent : String)
    (s : Site α) :
    l.linkLeaf place row (liftSite e parent i s) =
      (e.set row i (l.linkLeaf (fun path is => place (parent ++ "." ++ path) (i :: is)) x s).1,
        (l.linkLeaf (fun path is => place (parent ++ "." ++ path) (i :: is)) x s).2) := by
  simp only [linkLeaf, liftSite, PropertyNode.get_lift hx, PropertyNode.path_lift]
  cases (s.1.get x s.2).toOption with
  | none => simp only [he.set_get row i x hx]
  | some v =>
    simp only [PropertyNode.set_lift hx]
    congr 1
    split
    · cases (s.1.set x s.2 (l.link (place (parent ++ "." ++ s.1.path) (i :: s.2)) v).value).toOption
        <;> simp [he.set_get row i x hx]
    · exact (he.set_get row i x hx).symm

include he in
/-- Linking leaves below an element links leaves of the element. -/
theorem linkLeaves_lift {row : ρ} {x : α} (hx : (e.items row)[i]? = some x) (parent : String)
    (sites : List (Site α)) :
    l.linkLeaves place row (sites.map (liftSite e parent i)) =
      (e.set row i
          (l.linkLeaves (fun path is => place (parent ++ "." ++ path) (i :: is)) x sites).1,
        (l.linkLeaves (fun path is => place (parent ++ "." ++ path) (i :: is)) x sites).2) := by
  induction sites generalizing row x with
  | nil => simp only [List.map_nil, linkLeaves, he.set_get row i x hx]
  | cons s rest ih =>
    have hi : i < (e.items row).length := (List.getElem?_eq_some_iff.mp hx).1
    -- after the first leaf the element is the one in which that leaf is linked
    have hnext : ∀ y, (e.items (e.set row i y))[i]? = some y := by
      intro y
      rw [he.items_set, List.getElem?_set_self hi]
    simp only [List.map_cons, linkLeaves, l.linkLeaf_lift place he hx parent s, ih (hnext _),
      he.set_set]

end Linker

/-! ### Parts of a row -/

section Pair

variable {ρ α β : Type} {len : Lens ρ (α × β)} (hlen : len.Lawful)

include hlen

theorem Lens.second_get_first_set (row : ρ) (a : α) :
    len.second.get (len.first.set row a) = (len.get row).2 := by
  simp only [Lens.second, Lens.first, hlen.get_set]

/-- Linking the leaves of both parts of a pair links both parts. -/
theorem Linker.linkLeaves_pair (l : Linker) (place : String → List Nat → ReferenceSite) {row : ρ}
    {xs ys : List (Site ρ)} {a : α} {b : β} {errors more : List ReferenceError}
    (hfirst : l.linkLeaves place row xs = (len.first.set row a, errors))
    (hsecond : l.linkLeaves place (len.first.set row a) ys =
      (len.second.set (len.first.set row a) b, more)) :
    l.linkLeaves place row (xs ++ ys) = (len.set row (a, b), errors ++ more) := by
  rw [linkLeaves_append, hfirst, hsecond]
  simp only [Lens.first, Lens.second, hlen.get_set, hlen.set_set]

end Pair

/-! ### The elements of a list -/

section Elements

variable {ρ α : Type} {form : RowsForm} {len : Lens ρ (form.Holder α)} (hlen : len.Lawful)
  (l : Linker) (place : String → List Nat → ReferenceSite) {parent : String}
  {sites : α → List (Site α)} {F : α → α} {E : (Nat → α → List ReferenceError)}
  (hsites : ∀ i x,
    l.linkLeaves (fun path is => place (parent ++ "." ++ path) (i :: is)) x (sites x) =
      (F x, E i x))

include hlen hsites

theorem Linker.exists_linkLeaves_elements (done todo : List α) (row : ρ)
    (hrow : form.items (len.get row) = done ++ todo) :
    ∃ ys, form.items ys = done ++ todo.map F ∧
      l.linkLeaves place row ((todo.zipIdx done.length).flatMap fun p =>
          (sites p.1).map (liftSite (Lens.elements form len) parent p.2)) =
        (len.set row ys, (todo.zipIdx done.length).flatMap fun p => E p.2 p.1) := by
  -- the elements in `done` are linked already, and positions count from behind them
  induction todo generalizing done row with
  | nil => exact ⟨len.get row, hrow, by rw [hlen.set_get]; rfl⟩
  | cons x rest ih =>
    have hitems : ((Lens.elements form len).items row)[done.length]? = some x := by
      change (form.items (len.get row))[done.length]? = some x
      rw [hrow, List.getElem?_append_right (Nat.le_refl _), Nat.sub_self, List.getElem?_cons_zero]
    have hnext : form.items (len.get ((Lens.elements form len).set row done.length (F x))) =
        (done ++ [F x]) ++ rest := by
      simp only [Lens.elements, hlen.get_set, RowsForm.items_set, hrow]
      rw [List.set_append_right _ _ (Nat.le_refl _), Nat.sub_self, List.set_cons_zero,
        List.append_cons]
    obtain ⟨ys, hys, hlink⟩ := ih (done ++ [F x]) _ hnext
    refine ⟨ys, by rw [hys, List.map_cons, ← List.append_cons], ?_⟩
    rw [List.length_append, List.length_singleton] at hlink
    rw [List.zipIdx_cons, List.flatMap_cons, List.flatMap_cons, linkLeaves_append,
      linkLeaves_lift l place (Lens.elements_lawful hlen) hitems]
    have hset : len.set ((Lens.elements form len).set row done.length (F x)) ys = len.set row ys :=
      hlen.set_set _ _ _
    simp only [hsites, hlink, hset]

/-- Linking the leaves of all elements of a list links the elements. -/
theorem Linker.linkLeaves_elements (row : ρ) :
    l.linkLeaves place row ((form.items (len.get row)).zipIdx.flatMap fun p =>
        (sites p.1).map (liftSite (Lens.elements form len) parent p.2)) =
      (len.set row (form.map F (len.get row)),
        (form.items (len.get row)).zipIdx.flatMap fun p => E p.2 p.1) := by
  obtain ⟨ys, hys, hlink⟩ := l.exists_linkLeaves_elements hlen place hsites []
    (form.items (len.get row)) row rfl
  have hmap : ys = form.map F (len.get row) :=
    RowsForm.eq_of_items (by rw [hys, RowsForm.items_map, List.nil_append])
  rw [← hmap]
  exact hlink

end Elements

/-! ### Members -/

/-- A place for values that stand nowhere. -/
def ReferenceSite.nowhere : ReferenceSite := ⟨"", "", "", []⟩

/-- A part of a row that is printed, linked and read again, if anything changes in it. What does
not read back stays as it is. -/
def Linker.rewrite {α : Type} (l : Linker) (print : α → Value) (read : Value → Except CellError α)
    (x : α) : α :=
  if (l.link .nowhere (print x)).changed then
    (read ((print x).mapRefs l.refMap)).toOption.getD x
  else x

mutual

/-- The value of a member with its references linked. -/
def MemberType.relinked (l : Linker) (d : RecordDecl) (info : MemberInfo) :
    (t : MemberType) → t.El → t.El
  | .cell t => fun x =>
    if (d.field (MemberType.decl info (.cell t))).mayHoldReferences then
      l.rewrite (t.print .pascal) (t.read .pascal) x
    else x
  | .rows form head ms _ => form.map (ms.relinked l (head.decl ms))
  | .converted _ => fun y => y
  | .ignored _ => fun y => y

/-- The values of members with their references linked. -/
def Members.relinked (l : Linker) (d : RecordDecl) : (ms : Members) → ms.El → ms.El
  | .nil => fun x => x
  | .cons info t rest => fun x => (t.relinked l d info x.1, rest.relinked l d x.2)

end

mutual

/-- The references of a member that are not found. -/
def MemberType.linkErrors (l : Linker) (d : RecordDecl) (info : MemberInfo)
    (place : String → List Nat → ReferenceSite) : (t : MemberType) → t.El → List ReferenceError
  | .cell t => fun x =>
    let field := d.field (MemberType.decl info (.cell t))
    if field.mayHoldReferences then
      (l.link (place field.propertyName []) (t.print .pascal x)).errors
    else []
  | .rows form head ms via => fun xs =>
    let property := (d.field (MemberType.decl info (.rows form head ms via))).propertyName
    (form.items xs).zipIdx.flatMap fun p =>
      ms.linkErrors l (head.decl ms)
        (fun path is => place (property ++ "." ++ path) (p.2 :: is)) p.1
  | .converted _ => fun _ => []
  | .ignored _ => fun _ => []

/-- The references of members that are not found. -/
def Members.linkErrors (l : Linker) (d : RecordDecl) (place : String → List Nat → ReferenceSite) :
    (ms : Members) → ms.El → List ReferenceError
  | .nil => fun _ => []
  | .cons info t rest => fun x => t.linkErrors l d info place x.1 ++ rest.linkErrors l d place x.2

end

section Nodes

variable {ρ : Type}

/-- The leaves that a walk from nodes meets and that may hold references. -/
def referenceLeaves (row : ρ) (ns : List (PropertyNode ρ)) : List (Site ρ) :=
  (walkFrom row (ns.map fun n => (n, []))).filter fun s => Table.mayHoldReferences s.1

theorem referenceLeaves_nil (row : ρ) : referenceLeaves row [] = [] := by
  rw [referenceLeaves, List.map_nil, PropertyNode.walkFrom_nil]
  rfl

theorem referenceLeaves_append (row : ρ) (xs ys : List (PropertyNode ρ)) :
    referenceLeaves row (xs ++ ys) = referenceLeaves row xs ++ referenceLeaves row ys := by
  rw [referenceLeaves, List.map_append, PropertyNode.walkFrom_append, List.filter_append]
  rfl

theorem referenceLeaves_leaf (row : ρ) (d : FieldDescriptor) (get : ρ → Value)
    (set : ρ → Value → Except CellError ρ) :
    referenceLeaves row [.leaf d get set] =
      if d.mayHoldReferences then [(.leaf d get set, [])] else [] := by
  rw [referenceLeaves, List.map_singleton, PropertyNode.walkFrom_leaf row rfl, List.filter_cons,
    List.filter_nil]
  rfl

theorem mayHoldReferences_liftSite {α : Type} (e : Elements ρ α) (parent : String) (i : Nat)
    (s : Site α) :
    Table.mayHoldReferences (liftSite e parent i s).1 = Table.mayHoldReferences s.1 := by
  rw [Table.mayHoldReferences, liftSite, PropertyNode.descriptor_lift]
  rfl

theorem referenceLeaves_vertical {α : Type} (row : ρ) (d : FieldDescriptor) (e : Elements ρ α)
    (nodes : List (PropertyNode α)) :
    referenceLeaves row [.vertical d e nodes] =
      (e.items row).zipIdx.flatMap fun p =>
        (referenceLeaves p.1 nodes).map (liftSite e d.propertyName p.2) := by
  rw [referenceLeaves, List.map_singleton, PropertyNode.walkFrom_elements, List.filter_flatMap]
  refine List.flatMap_congr fun p _ => ?_
  rw [List.filter_map, referenceLeaves]
  congr 2
  funext s
  exact mayHoldReferences_liftSite e d.propertyName p.2 s

variable (l : Linker)

/-- Linking the leaf of a cell rewrites the cell. -/
theorem Linker.linkLeaf_cell {α : Type} (place : String → List Nat → ReferenceSite)
    (d : FieldDescriptor) (print : α → Value) (read : Value → Except CellError α) {len : Lens ρ α}
    (hlen : len.Lawful) (row : ρ) :
    l.linkLeaf place row (.leaf d (fun row => print (len.get row))
        (fun row v => (read v).map (len.set row)), []) =
      (len.set row (l.rewrite print read (len.get row)),
        (l.link (place d.propertyName []) (print (len.get row))).errors) := by
  have hget : ((PropertyNode.leaf d (fun row => print (len.get row))
      (fun row v => (read v).map (len.set row))).get row []).toOption =
        some (print (len.get row)) := rfl
  have hset : ∀ v, ((PropertyNode.leaf d (fun row => print (len.get row))
      (fun row v => (read v).map (len.set row))).set row [] v).toOption =
        (read v).toOption.map (len.set row) := by
    intro v
    change (((read v).map (len.set row)).mapError _).toOption = _
    rw [PropertyNode.toOption_mapError]
    cases read v <;> rfl
  simp only [Linker.linkLeaf, hget, hset, Linker.rewrite, Linker.link_value]
  refine Prod.ext ?_ rfl
  rw [Linker.link_changed_site _ .nowhere]
  split
  -- what does not read back is not written
  · cases (read ((print (len.get row)).mapRefs l.refMap)).toOption with
    | none => exact (hlen.set_get row).symm
    | some y => rfl
  · exact (hlen.set_get row).symm

theorem ScalarType.everyRef_print (R : TargetRef → Prop) (A : AssetRef → Prop) (s : ScalarType)
    (x : s.El) : (s.print x).EveryRef R A := by
  cases s with
  | int k =>
    change (printInt x.val).EveryRef R A
    rw [printInt]
    split <;> trivial
  | _ => trivial

theorem InputType.everyRef_print (R : TargetRef → Prop) (A : AssetRef → Prop) : (i : InputType) →
    (x : i.El) → (i.print x).EveryRef R A
  | .scalar s, x => s.everyRef_print R A x
  | .option _, none => trivial
  | .option i, some y => i.everyRef_print R A y

/-- A converted member holds no references, so linking leaves it alone. -/
theorem Linker.linkLeaf_converted (place : String → List Nat → ReferenceSite)
    (d : FieldDescriptor) (c : Converter) {len : Lens ρ c.output.El} (hlen : len.Lawful) (row : ρ) :
    l.linkLeaf place row (.leaf d (fun row => c.print (len.get row))
        (fun row v => (c.read v).map (len.set row)), []) = (row, []) := by
  have hplain := InputType.everyRef_print (fun _ => False) (fun _ => False) c.input
    (c.revert (len.get row))
  have hlink : ∀ site, l.link site (c.print (len.get row)) = .same (c.print (len.get row)) :=
    fun site => l.link_of_everyRef_false _ hplain
  rw [l.linkLeaf_cell place d c.print c.read hlen, Linker.rewrite, hlink, hlink]
  exact Prod.ext (hlen.set_get row) rfl

mutual

/-- Linking the leaves of a member links the member. The leaves may be those of another row, as
long as it has the same member. -/
theorem MemberType.linkLeaves_nodes {ρ : Type} (place : String → List Nat → ReferenceSite)
    (d : RecordDecl) (info : MemberInfo) : (t : MemberType) → {len : Lens ρ t.El} →
    len.Lawful → {row₀ row : ρ} → len.get row₀ = len.get row →
    l.linkLeaves place row (referenceLeaves row₀ (t.nodes d info len)) =
      (len.set row (t.relinked l d info (len.get row)), t.linkErrors l d info place (len.get row))
  | .cell t, len, hlen, row₀, row, _ => by
    rw [MemberType.nodes, referenceLeaves_leaf]
    simp only [MemberType.relinked, MemberType.linkErrors]
    split
    · rw [Linker.linkLeaves_singleton]
      exact l.linkLeaf_cell place _ (t.print .pascal) (t.read .pascal) hlen row
    · exact Prod.ext (hlen.set_get row).symm rfl
  | .rows form head ms _, len, hlen, row₀, row, hsame => by
    rw [MemberType.nodes, referenceLeaves_vertical]
    simp only [MemberType.relinked, MemberType.linkErrors]
    -- the leaves were listed for another row, with as many rows in this member
    have hitems : (Lens.elements form len).items row₀ = form.items (len.get row) :=
      congrArg form.items hsame
    rw [hitems]
    exact l.linkLeaves_elements hlen place (fun i x =>
      ms.linkLeaves_nodes _ (head.decl ms) Lens.whole_lawful rfl) row
  | .converted c, len, hlen, row₀, row, _ => by
    rw [MemberType.nodes, referenceLeaves_leaf]
    have hrow : (row, ([] : List ReferenceError)) = (len.set row (len.get row), []) :=
      Prod.ext (hlen.set_get row).symm rfl
    split
    · rw [Linker.linkLeaves_singleton]
      exact (l.linkLeaf_converted place _ c hlen row).trans hrow
    · exact hrow
  | .ignored _, len, hlen, row₀, row, _ => by
    rw [MemberType.nodes, referenceLeaves_nil]
    exact Prod.ext (hlen.set_get row).symm rfl

/-- Linking the leaves of members links the members. -/
theorem Members.linkLeaves_nodes {ρ : Type} (place : String → List Nat → ReferenceSite)
    (d : RecordDecl) : (ms : Members) → {len : Lens ρ ms.El} → len.Lawful → {row₀ row : ρ} →
    len.get row₀ = len.get row →
    l.linkLeaves place row (referenceLeaves row₀ (ms.nodes d len)) =
      (len.set row (ms.relinked l d (len.get row)), ms.linkErrors l d place (len.get row))
  | .nil, len, hlen, row₀, row, _ => by
    rw [Members.nodes, referenceLeaves_nil]
    exact Prod.ext (hlen.set_get row).symm rfl
  | .cons info t rest, len, hlen, row₀, row, hsame => by
    have hfirst := t.linkLeaves_nodes place d info hlen.first (congrArg Prod.fst hsame)
    -- the first member does not change what the others are
    have hkept := Lens.second_get_first_set hlen row (t.relinked l d info (len.get row).1)
    have hothers := rest.linkLeaves_nodes place d hlen.second
      ((congrArg Prod.snd hsame).trans hkept.symm)
    rw [Members.nodes, referenceLeaves_append]
    rw [hkept] at hothers
    exact Linker.linkLeaves_pair hlen l place hfirst hothers

end

end Nodes

/-! ### Rows -/

namespace Table

variable {t : TableType} (l : Linker) (sheet : String)

theorem linkSite_eq (key : String) (row : t.Row) (s : Site t.Row) :
    linkSite l sheet key row s = l.linkLeaf (fun path is => ⟨sheet, key, path, is⟩) row s := by
  rw [linkSite, Linker.linkLeaf]
  cases s.1.get row s.2 with
  | error e => rfl
  | ok v =>
    simp only [Except.toOption]
    split
    · cases s.1.set row s.2 (l.link ⟨sheet, key, s.1.path, s.2⟩ v).value <;> rfl
    · rfl

theorem linkSites_eq (key : String) (row : t.Row) (sites : List (Site t.Row)) :
    linkSites l sheet key row sites =
      l.linkLeaves (fun path is => ⟨sheet, key, path, is⟩) row sites := by
  induction sites generalizing row with
  | nil => rfl
  | cons s rest ih => simp only [linkSites, Linker.linkLeaves, linkSite_eq, ih]

/-- The leaves of a row that may hold references are those of its members. -/
theorem referenceSites_eq (row : t.Row) :
    referenceSites t.record.properties row =
      referenceLeaves row (t.record.members.nodes t.record.decl Lens.whole) := by
  rw [referenceSites, PropertyNode.walk, RecordType.properties, PropertyNode.walkFrom_root]
  rfl

/-- Linking a row links its members. -/
theorem linkRow_eq (row : t.Row) :
    linkRow l t.record.properties sheet row =
      (t.record.members.relinked l t.record.decl row,
        t.record.members.linkErrors l t.record.decl
          (fun path is => ⟨sheet, t.key row, path, is⟩) row) := by
  rw [linkRow, referenceSites_eq, linkSites_eq]
  exact t.record.members.linkLeaves_nodes l _ t.record.decl Lens.whole_lawful rfl

end Table

end TypedSheets
