import Mathlib.Data.List.Basic
import TypedSheets.Property.Access
import TypedSheets.Property.Lens
import TypedSheets.Property.Walk

/-!
# Walking a property tree

The walk keeps a stack of nodes. What it meets is what a walk from each node on the stack would
meet, one after the other, and below an element of a list it meets what it would meet in the
element alone.

## Main definitions

* `Elements.Lawful` — an element that is written is seen, and no other changes

## Main results

* `walkFrom_append`, `walkFrom_leaf`, `walkFrom_vertical` — the walk without its stack
* `walkFrom_lift`, `walkFrom_elements` — the walk below an element, and below all elements
* `get_lift`, `set_lift` — reading and writing below an element
-/

namespace TypedSheets

/-! ### Elements -/

section Elements

variable {ρ α : Type}

/-- What is written at a position is seen there and nowhere else, writing what is seen changes
nothing, and the last write at a position counts. -/
structure Elements.Lawful (e : Elements ρ α) : Prop where
  items_set : ∀ row i x, e.items (e.set row i x) = (e.items row).set i x
  set_get : ∀ row i x, (e.items row)[i]? = some x → e.set row i x = row
  set_set : ∀ row i x y, e.set (e.set row i x) i y = e.set row i y

theorem RowsForm.eq_of_items {form : RowsForm} {xs ys : form.Holder α}
    (h : form.items xs = form.items ys) : xs = ys := by
  cases form with
  | list => exact h
  | boxedSlice => exact h
  | array length => exact Subtype.ext h

theorem Lens.elements_lawful {form : RowsForm} {l : Lens ρ (form.Holder α)} (h : l.Lawful) :
    (Lens.elements form l).Lawful where
  items_set row i x := by
    simp only [Lens.elements, h.get_set, RowsForm.items_set]
  set_get row i x hx := by
    have hitem : (form.items (l.get row))[i]? = some x := hx
    obtain ⟨hi, rfl⟩ := List.getElem?_eq_some_iff.mp hitem
    have hsame : form.set (l.get row) i (form.items (l.get row))[i] = l.get row :=
      RowsForm.eq_of_items (by rw [RowsForm.items_set, List.set_getElem_self])
    simp only [Lens.elements, hsame, h.set_get]
  set_set row i x y := by
    have hlast : form.set (form.set (l.get row) i x) i y = form.set (l.get row) i y :=
      RowsForm.eq_of_items (by simp only [RowsForm.items_set, List.set_set])
    simp only [Lens.elements, h.get_set, h.set_set, hlast]

end Elements

namespace PropertyNode

variable {ρ α : Type}

/-! ### The walk without its stack -/

theorem walkFrom_nil (row : ρ) : walkFrom row [] = [] := by
  rw [walkFrom]

theorem walkFrom_cons (row : ρ) (site : Site ρ) (rest : List (Site ρ)) :
    walkFrom row (site :: rest) =
      if site.1.isLeaf then site :: walkFrom row rest
      else walkFrom row (sitesBelow row site ++ rest) := by
  rw [walkFrom]

/-- What is further down the stack is met after what is above. -/
theorem walkFrom_append (row : ρ) (xs ys : List (Site ρ)) :
    walkFrom row (xs ++ ys) = walkFrom row xs ++ walkFrom row ys := by
  induction xs using walkFrom.induct row with
  | case1 => rw [List.nil_append, walkFrom_nil, List.nil_append]
  | case2 site rest hleaf ih =>
    rw [List.cons_append, walkFrom_cons, walkFrom_cons, if_pos hleaf, if_pos hleaf, ih,
      List.cons_append]
  | case3 site rest hleaf ih =>
    rw [List.cons_append, walkFrom_cons, walkFrom_cons, if_neg hleaf, if_neg hleaf,
      ← List.append_assoc, ih]

theorem walkFrom_flatMap {β : Type} (row : ρ) (xs : List β) (f : β → List (Site ρ)) :
    walkFrom row (xs.flatMap f) = xs.flatMap fun x => walkFrom row (f x) := by
  induction xs with
  | nil => exact walkFrom_nil row
  | cons x rest ih => rw [List.flatMap_cons, List.flatMap_cons, walkFrom_append, ih]

theorem walkFrom_leaf (row : ρ) {n : PropertyNode ρ} (h : n.isLeaf = true) (indexes : List Nat) :
    walkFrom row [(n, indexes)] = [(n, indexes)] := by
  rw [walkFrom_cons, if_pos h, walkFrom_nil]

/-- Below a vertical node the elements are gone through in order. -/
theorem walkFrom_vertical (row : ρ) (path : String) (d : Option FieldDescriptor) (depth : Nat)
    (count : ρ → List Nat → Except AccessError Nat) (children : List (PropertyNode ρ))
    (indexes : List Nat) :
    walkFrom row [(.mk path d depth (.vertical count) children, indexes)] =
      (List.range (countOrZero count row indexes)).flatMap fun i =>
        walkFrom row (children.map fun c => (c, indexes ++ [i])) := by
  rw [walkFrom_cons, if_neg (by simp [isLeaf, access]), List.append_nil, sitesBelow,
    walkFrom_flatMap]

theorem walkFrom_root (row : ρ) (name : String) (children : List (PropertyNode ρ)) :
    walkFrom row [(root name children, [])] = walkFrom row (children.map fun c => (c, [])) := by
  rw [walkFrom_cons, if_neg (by simp [root, isLeaf, access]), List.append_nil]
  rfl

/-! ### Below an element -/

theorem liftEach_eq_map (e : Elements ρ α) (parent : String) (ns : List (PropertyNode α)) :
    liftEach e parent ns = ns.map (lift e parent) := by
  induction ns with
  | nil => rfl
  | cons n rest ih => rw [liftEach, ih, List.map_cons]

/-- A site in an element, as a site in the row. -/
def liftSite (e : Elements ρ α) (parent : String) (i : Nat) (s : Site α) : Site ρ :=
  (s.1.lift e parent, i :: s.2)

@[simp] theorem isLeaf_lift (e : Elements ρ α) (parent : String) (n : PropertyNode α) :
    (n.lift e parent).isLeaf = n.isLeaf := by
  obtain ⟨path, d, depth, access, children⟩ := n
  cases access <;> rfl

@[simp] theorem descriptor_lift (e : Elements ρ α) (parent : String) (n : PropertyNode α) :
    (n.lift e parent).descriptor = n.descriptor := by
  obtain ⟨path, d, depth, access, children⟩ := n
  rfl

@[simp] theorem path_lift (e : Elements ρ α) (parent : String) (n : PropertyNode α) :
    (n.lift e parent).path = parent ++ "." ++ n.path := by
  obtain ⟨path, d, depth, access, children⟩ := n
  rfl

@[simp] theorem depth_lift (e : Elements ρ α) (parent : String) (n : PropertyNode α) :
    (n.lift e parent).depth = n.depth + 1 := by
  obtain ⟨path, d, depth, access, children⟩ := n
  rfl

@[simp] theorem access_lift (e : Elements ρ α) (parent : String) (n : PropertyNode α) :
    (n.lift e parent).access = n.access.lift e (parent ++ "." ++ n.path) := by
  obtain ⟨path, d, depth, access, children⟩ := n
  rfl

theorem atIndex_cons {β : Type} (e : Elements ρ α) {row : ρ} {i : Nat} {x : α}
    (hx : (e.items row)[i]? = some x) (path : String) (indexes : List Nat)
    (act : Nat → α → List Nat → Except AccessError β) :
    e.atIndex path row (i :: indexes) act =
      (act i x indexes).mapError (AccessError.withPath path) := by
  rw [Elements.atIndex, hx]

theorem toOption_mapError {ε ε' β : Type} (f : ε → ε') (r : Except ε β) :
    (r.mapError f).toOption = r.toOption := by
  cases r <;> rfl

theorem checked_of_eq {β : Type} {n : PropertyNode ρ} {indexes : List Nat}
    {act : Unit → Except AccessError β} (h : indexes.length = n.depth) :
    n.checked indexes act = act () :=
  if_pos h

theorem checked_of_ne {β : Type} {n : PropertyNode ρ} {indexes : List Nat}
    {act : Unit → Except AccessError β} (h : indexes.length ≠ n.depth) :
    n.checked indexes act = .error (.indexDepth n.path n.depth indexes.length) :=
  if_neg h

section AtElement

variable {e : Elements ρ α} {row : ρ} {i : Nat} {x : α} (hx : (e.items row)[i]? = some x)

include hx

theorem sitesBelow_liftSite (parent : String) (s : Site α) :
    sitesBelow row (liftSite e parent i s) = (sitesBelow x s).map (liftSite e parent i) := by
  obtain ⟨⟨path, d, depth, access, children⟩, indexes⟩ := s
  cases access with
  | root =>
    simp only [liftSite, lift, Access.lift, sitesBelow, liftEach_eq_map, List.map_map]
    rfl
  | leaf get set => rfl
  | vertical count =>
    have hcount : countOrZero (fun row indexes =>
        e.atIndex (parent ++ "." ++ path) row indexes fun _ x rest => count x rest) row
          (i :: indexes) = countOrZero count x indexes := by
      simp only [countOrZero, atIndex_cons e hx]
      cases count x indexes <;> rfl
    simp only [liftSite, lift, Access.lift, sitesBelow, hcount, liftEach_eq_map, List.map_map,
      List.map_flatMap]
    rfl

/-- Below an element the walk meets what it meets in the element. -/
theorem walkFrom_lift (parent : String) (stack : List (Site α)) :
    walkFrom row (stack.map (liftSite e parent i)) =
      (walkFrom x stack).map (liftSite e parent i) := by
  induction stack using walkFrom.induct x with
  | case1 => rw [List.map_nil, walkFrom_nil, walkFrom_nil, List.map_nil]
  | case2 site rest hleaf ih =>
    have hlift : (liftSite e parent i site).1.isLeaf = true := (isLeaf_lift e parent _).trans hleaf
    rw [List.map_cons, walkFrom_cons, walkFrom_cons, if_pos hleaf, if_pos hlift, ih, List.map_cons]
  | case3 site rest hleaf ih =>
    have hlift : ¬ (liftSite e parent i site).1.isLeaf = true := by
      rw [liftSite, isLeaf_lift]
      exact hleaf
    rw [List.map_cons, walkFrom_cons, walkFrom_cons, if_neg hleaf, if_neg hlift,
      sitesBelow_liftSite hx, ← List.map_append, ih]

/-- Reading below an element reads in the element. -/
theorem get_lift (parent : String) (n : PropertyNode α) (indexes : List Nat) :
    ((n.lift e parent).get row (i :: indexes)).toOption = (n.get x indexes).toOption := by
  by_cases hdepth : indexes.length = n.depth
  · have hlift : (i :: indexes).length = (n.lift e parent).depth := by simp [hdepth]
    rw [PropertyNode.get, PropertyNode.get, checked_of_eq hdepth, checked_of_eq hlift, access_lift]
    cases n.access with
    | root => rfl
    | leaf get set => simp only [Access.lift, atIndex_cons e hx, toOption_mapError]
    | vertical count => rfl
  · have hlift : (i :: indexes).length ≠ (n.lift e parent).depth := by simp [hdepth]
    rw [PropertyNode.get, PropertyNode.get, checked_of_ne hdepth, checked_of_ne hlift]
    rfl

/-- Writing below an element writes in the element. -/
theorem set_lift (parent : String) (n : PropertyNode α) (indexes : List Nat) (v : Value) :
    ((n.lift e parent).set row (i :: indexes) v).toOption =
      (n.set x indexes v).toOption.map (e.set row i) := by
  by_cases hdepth : indexes.length = n.depth
  · have hlift : (i :: indexes).length = (n.lift e parent).depth := by simp [hdepth]
    rw [PropertyNode.set, PropertyNode.set, checked_of_eq hdepth, checked_of_eq hlift, access_lift]
    cases n.access with
    | root => rfl
    | leaf get set =>
      simp only [Access.lift, atIndex_cons e hx, toOption_mapError]
      cases set x indexes v <;> rfl
    | vertical count => rfl
  · have hlift : (i :: indexes).length ≠ (n.lift e parent).depth := by simp [hdepth]
    rw [PropertyNode.set, PropertyNode.set, checked_of_ne hdepth, checked_of_ne hlift]
    rfl

end AtElement

/-- Below a vertical node the walk meets what it meets in each element, one after the other. -/
theorem walkFrom_elements (row : ρ) (d : FieldDescriptor) (e : Elements ρ α)
    (nodes : List (PropertyNode α)) :
    walkFrom row [(vertical d e nodes, [])] = (e.items row).zipIdx.flatMap fun p =>
      (walkFrom p.1 (nodes.map fun n => (n, []))).map (liftSite e d.propertyName p.2) := by
  have hrange : List.range (countOrZero
      (fun row _ => (Except.ok (e.items row).length : Except AccessError Nat)) row []) =
        (e.items row).zipIdx.map Prod.snd := by
    rw [List.zipIdx_map_snd, ← List.range_eq_range']
    rfl
  rw [vertical, walkFrom_vertical, hrange, List.flatMap_map]
  refine List.flatMap_congr fun p hp => ?_
  have hitem : (e.items row)[p.2]? = some p.1 := List.mem_zipIdx_iff_getElem?.mp hp
  have hstack : ((liftEach e d.propertyName nodes).map fun n => (n, [] ++ [p.2])) =
      (nodes.map fun n => (n, ([] : List Nat))).map (liftSite e d.propertyName p.2) := by
    rw [liftEach_eq_map, List.map_map, List.map_map]
    rfl
  rw [hstack, walkFrom_lift hitem]

end PropertyNode

end TypedSheets
