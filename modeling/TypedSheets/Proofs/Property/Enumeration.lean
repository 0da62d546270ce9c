import Mathlib.Data.List.Forall2
import Mathlib.Data.List.Nodup
import TypedSheets.Proofs.Cell.Items
import TypedSheets.Proofs.Cell.Parts
import TypedSheets.Proofs.Property.Walk
import TypedSheets.Property.Record

/-!
# Enumerating the leaves of a row

The walk of a property tree keeps a stack and counts the elements of a list through the nodes above
it. Here the leaves of a row are enumerated from the types of its members instead, depth first and
without a tree. Both come to the same: the same leaves in the same order, each at the place where it
stands and with the value that is read there.

## Main definitions

* `Leaf` — a leaf of a row: where it stands in the tree, the indexes that lead to it, its value
* `Members.leaves`, `RecordType.leaves` — the leaves of a row, depth first
* `PropertyNode.descend?` — the node at a position in a tree

## Main results

* `RecordType.leaves_eq_walk` — the walk meets the enumerated leaves in order
* `RecordType.nodup_leaves` — no leaf is enumerated twice
* `RecordType.mem_leaves_of_get` — every leaf that can be read is enumerated
* `RecordType.walk_visits_each_leaf_once` — all of this for one row
-/

namespace TypedSheets

open PropertyNode (Site walkFrom liftSite)

/-! ### Leaves of a row -/

/-- A leaf of a row. Its place in the property tree is told by positions among the data members,
from the outermost record to the one that it is a member of. -/
structure Leaf where
  position : List Nat
  /-- The element taken in each list on the way, the outermost first. -/
  indexes : List Nat
  value : Value

namespace Leaf

/-- Where a leaf stands. -/
def place (leaf : Leaf) : List Nat × List Nat := (leaf.position, leaf.indexes)

/-- A leaf of a part of a row, as a leaf of the row. -/
def under (position indexes : List Nat) (leaf : Leaf) : Leaf :=
  ⟨position ++ leaf.position, indexes ++ leaf.indexes, leaf.value⟩

theorem place_under (position indexes : List Nat) (leaf : Leaf) :
    (leaf.under position indexes).place =
      (position ++ leaf.place.1, indexes ++ leaf.place.2) := rfl

end Leaf

mutual

/-- The leaves of the member at a position. A vertical member has those of its elements, in the
order of the elements. -/
def MemberType.leaves (position indexes : List Nat) : (t : MemberType) → t.El → List Leaf
  | .cell t => fun x => [⟨position, indexes, t.print .pascal x⟩]
  | .rows form _ ms _ => fun xs =>
    (form.items xs).zipIdx.flatMap fun p => ms.leaves position 0 (indexes ++ [p.2]) p.1
  | .converted c => fun y => [⟨position, indexes, c.print y⟩]
  | .ignored _ => fun _ => []

/-- The leaves of the members of a record in the order of their declaration. The record is the
member at `position`, and its first data member here is the one with that number. -/
def Members.leaves (position : List Nat) (number : Nat) (indexes : List Nat) :
    (ms : Members) → ms.El → List Leaf
  | .nil => fun _ => []
  | .cons _ t rest => fun x =>
    t.leaves (position ++ [number]) indexes x.1 ++
      rest.leaves position (if t.isData then number + 1 else number) indexes x.2

end

/-- The leaves of a row, depth first. -/
def RecordType.leaves (r : RecordType) (row : r.Row) : List Leaf := r.members.leaves [] 0 [] row

mutual

/-- Where a member stands only shows in front of the places of its leaves. -/
theorem MemberType.leaves_eq_map_under (position indexes : List Nat) : (t : MemberType) →
    (x : t.El) → t.leaves position indexes x = (t.leaves [] [] x).map (Leaf.under position indexes)
  | .cell _, _ => by simp [MemberType.leaves, Leaf.under]
  | .rows form _ ms _, xs => by
    simp only [MemberType.leaves, List.map_flatMap, List.nil_append]
    refine List.flatMap_congr fun p _ => ?_
    rw [ms.leaves_eq_map_under position 0 (indexes ++ [p.2]), ms.leaves_eq_map_under [] 0 [p.2],
      List.map_map]
    refine List.map_congr_left fun leaf _ => ?_
    simp [Leaf.under]
  | .converted _, _ => by simp [MemberType.leaves, Leaf.under]
  | .ignored _, _ => rfl

theorem Members.leaves_eq_map_under (position : List Nat) (number : Nat) : (ms : Members) →
    (indexes : List Nat) → (x : ms.El) → ms.leaves position number indexes x =
      (ms.leaves [] number [] x).map (Leaf.under position indexes)
  | .nil, _, _ => rfl
  | .cons _ t rest, indexes, x => by
    simp only [Members.leaves, List.map_append, List.nil_append]
    rw [t.leaves_eq_map_under (position ++ [number]), t.leaves_eq_map_under [number] [],
      rest.leaves_eq_map_under position, List.map_map]
    congr 1
    refine List.map_congr_left fun leaf _ => ?_
    simp [Leaf.under]

end

/-! ### Positions in a tree -/

namespace PropertyNode

variable {ρ α : Type}

/-- The node at a position below a node: each number chooses one of the nodes one level down. -/
def descend? : (position : List Nat) → PropertyNode ρ → Option (PropertyNode ρ)
  | [], n => some n
  | i :: rest, n => n.children[i]?.bind (descend? rest)

/-- The node at a position in a list of trees; the first number chooses a tree. -/
def descendIn? (ns : List (PropertyNode ρ)) : (position : List Nat) → Option (PropertyNode ρ)
  | [] => none
  | i :: rest => ns[i]?.bind (descend? rest)

theorem children_lift (e : Elements ρ α) (parent : String) (n : PropertyNode α) :
    (n.lift e parent).children = n.children.map (lift e parent) := by
  obtain ⟨path, d, depth, access, children⟩ := n
  exact liftEach_eq_map e parent children

theorem descend?_lift (e : Elements ρ α) (parent : String) (position : List Nat)
    (n : PropertyNode α) :
    (n.lift e parent).descend? position = (n.descend? position).map (lift e parent) := by
  induction position generalizing n with
  | nil => rfl
  | cons i rest ih =>
    rw [descend?, descend?, children_lift, List.getElem?_map]
    cases n.children[i]? with
    | none => rfl
    | some child => exact ih child

/-- Below a vertical node stand the nodes of its records. -/
theorem descend?_vertical (d : FieldDescriptor) (e : Elements ρ α) (ns : List (PropertyNode α))
    (i : Nat) (rest : List Nat) : (vertical d e ns).descend? (i :: rest) =
      (descendIn? ns (i :: rest)).map (lift e d.propertyName) := by
  change (liftEach e d.propertyName ns)[i]?.bind (descend? rest) =
    (ns[i]?.bind (descend? rest)).map (lift e d.propertyName)
  rw [liftEach_eq_map, List.getElem?_map]
  cases ns[i]? with
  | none => rfl
  | some n => exact descend?_lift e d.propertyName rest n

/-- Of trees in a row, the one behind `before` is chosen by their number. -/
theorem descendIn?_append_cons (before : List (PropertyNode ρ)) (n : PropertyNode ρ)
    (after : List (PropertyNode ρ)) (rest : List Nat) :
    descendIn? (before ++ n :: after) (before.length :: rest) = n.descend? rest := by
  rw [descendIn?, List.getElem?_append_right (Nat.le_refl _), Nat.sub_self]
  rfl

theorem eq_ok_of_toOption {ε β : Type} {r : Except ε β} {b : β} (h : r.toOption = some b) :
    r = .ok b := by
  cases r with
  | error e => cases h
  | ok b => exact congrArg Except.ok (Option.some.inj h)

/-- A node is read with as many indexes as it takes. -/
theorem length_eq_depth_of_get {n : PropertyNode ρ} {row : ρ} {indexes : List Nat} {v : Value}
    (h : n.get row indexes = .ok v) : indexes.length = n.depth := by
  by_contra hdepth
  rw [PropertyNode.get, checked_of_ne hdepth] at h
  cases h

/-- Only leaves have a value. -/
theorem isLeaf_of_get {n : PropertyNode ρ} {row : ρ} {indexes : List Nat} {v : Value}
    (h : n.get row indexes = .ok v) : n.isLeaf = true := by
  rw [PropertyNode.get, checked_of_eq (length_eq_depth_of_get h)] at h
  rw [isLeaf]
  cases haccess : n.access with
  | leaf get set => rfl
  | _ =>
    rw [haccess] at h
    cases h

/-- What can be read below an element is read in that element. -/
theorem exists_of_get_lift {e : Elements ρ α} {parent : String} {n : PropertyNode α} {row : ρ}
    {indexes : List Nat} {v : Value} (h : (n.lift e parent).get row indexes = .ok v) :
    ∃ i rest x, indexes = i :: rest ∧ (e.items row)[i]? = some x ∧ n.get x rest = .ok v := by
  have hdepth := length_eq_depth_of_get h
  cases indexes with
  | nil => simp at hdepth
  | cons i rest =>
    cases hx : (e.items row)[i]? with
    | none =>
      -- the element is missing, and nothing is read
      rw [PropertyNode.get, checked_of_eq hdepth, access_lift] at h
      cases haccess : n.access <;> rw [haccess] at h <;>
        simp [Access.lift, Elements.atIndex, hx] at h
    | some x =>
      have hvalue := get_lift hx parent n rest
      rw [h] at hvalue
      exact ⟨i, rest, x, rfl, hx, eq_ok_of_toOption hvalue.symm⟩

end PropertyNode

open PropertyNode (descend? descendIn?)

/-! ### The walk meets the leaves -/

section Walk

variable {ρ α : Type}

/-- A site of a walk is where a leaf stands; `find` gives the node at a position. -/
structure Leaf.At (find : List Nat → Option (PropertyNode ρ)) (row : ρ) (leaf : Leaf)
    (s : Site ρ) : Prop where
  node : find leaf.position = some s.1
  indexes : leaf.indexes = s.2
  value : s.1.get row s.2 = .ok leaf.value

/-- A leaf of an element, as a leaf of the row that holds the element in a vertical member. -/
theorem Leaf.At.below {e : Elements ρ α} {d : FieldDescriptor} {ns : List (PropertyNode α)}
    {row : ρ} {i : Nat} {x : α} {leaf : Leaf} {s : Site α} (h : leaf.At (descendIn? ns) x s)
    (hx : (e.items row)[i]? = some x) (before after : List (PropertyNode ρ)) :
    (leaf.under [before.length] [i]).At
      (descendIn? (before ++ PropertyNode.vertical d e ns :: after)) row
      (liftSite e d.propertyName i s) := by
  obtain ⟨position, indexes, v⟩ := leaf
  obtain ⟨hnode, hindexes, hvalue⟩ := h
  refine ⟨?_, congrArg (i :: ·) hindexes, ?_⟩
  · cases position with
    | nil => cases hnode
    | cons j rest =>
      have hbelow := PropertyNode.descend?_vertical d e ns j rest
      rw [hnode] at hbelow
      exact (PropertyNode.descendIn?_append_cons before _ after (j :: rest)).trans hbelow
  · have hlift := PropertyNode.get_lift hx d.propertyName s.1 s.2
    rw [hvalue] at hlift
    exact PropertyNode.eq_ok_of_toOption hlift

mutual

/-- The walk from the node of a member meets the leaves of the member. -/
theorem MemberType.leaves_at {ρ : Type} (d : RecordDecl) (info : MemberInfo) : (t : MemberType) →
    (len : Lens ρ t.El) → (row : ρ) → (before after : List (PropertyNode ρ)) →
    List.Forall₂ (Leaf.At (descendIn? (before ++ (t.nodes d info len ++ after))) row)
      (t.leaves [before.length] [] (len.get row))
      (walkFrom row ((t.nodes d info len).map fun n => (n, [])))
  | .cell t, len, row, before, after => by
    rw [MemberType.nodes, List.map_singleton, PropertyNode.walkFrom_leaf row rfl]
    exact .cons ⟨PropertyNode.descendIn?_append_cons before _ after [], rfl, rfl⟩ .nil
  | .rows form head ms _, len, row, before, after => by
    rw [MemberType.nodes, List.map_singleton, PropertyNode.walkFrom_elements]
    have hsame : List.Forall₂ (fun p q => q = p ∧ p ∈ (form.items (len.get row)).zipIdx)
        (form.items (len.get row)).zipIdx ((Lens.elements form len).items row).zipIdx :=
      List.forall₂_same.mpr fun p hp => ⟨rfl, hp⟩
    -- element by element: its leaves, and what the walk meets below it
    refine List.rel_flatMap hsame ?_
    rintro _ p ⟨rfl, hp⟩
    have helement := ms.leaves_at (head.decl ms) Lens.whole p.1 []
    dsimp only
    rw [ms.leaves_eq_map_under [before.length] 0, List.forall₂_map_left_iff,
      List.forall₂_map_right_iff]
    exact helement.imp fun leaf s h =>
      h.below (List.mem_zipIdx_iff_getElem?.mp hp) before after
  | .converted c, len, row, before, after => by
    rw [MemberType.nodes, List.map_singleton, PropertyNode.walkFrom_leaf row rfl]
    exact .cons ⟨PropertyNode.descendIn?_append_cons before _ after [], rfl, rfl⟩ .nil
  | .ignored _, len, row, before, after => by
    rw [MemberType.nodes, List.map_nil, PropertyNode.walkFrom_nil]
    exact .nil

/-- The walk from the nodes of members meets the leaves of the members. -/
theorem Members.leaves_at {ρ : Type} (d : RecordDecl) : (ms : Members) → (len : Lens ρ ms.El) →
    (row : ρ) → (before : List (PropertyNode ρ)) →
    List.Forall₂ (Leaf.At (descendIn? (before ++ ms.nodes d len)) row)
      (ms.leaves [] before.length [] (len.get row))
      (walkFrom row ((ms.nodes d len).map fun n => (n, [])))
  | .nil, _, row, before => by
    rw [Members.nodes, List.map_nil, PropertyNode.walkFrom_nil]
    exact .nil
  | .cons info t rest, len, row, before => by
    have hfirst := t.leaves_at d info len.first row before (rest.nodes d len.second)
    have hothers := rest.leaves_at d len.second row (before ++ t.nodes d info len.first)
    have hnumber : (before ++ t.nodes d info len.first).length =
        if t.isData then before.length + 1 else before.length := by
      cases t <;> simp [MemberType.nodes, MemberType.isData]
    rw [Members.nodes, List.map_append, PropertyNode.walkFrom_append]
    rw [hnumber, List.append_assoc] at hothers
    exact List.rel_append hfirst hothers

end

/-- The walk through a row meets its leaves, each where it stands and with its value. -/
theorem RecordType.leaves_eq_walk (r : RecordType) (row : r.Row) :
    List.Forall₂ (Leaf.At r.properties.descend? row) (r.leaves row) (r.properties.walk row) := by
  rw [PropertyNode.walk, RecordType.properties, PropertyNode.walkFrom_root]
  refine (r.members.leaves_at r.decl Lens.whole row []).imp fun leaf s h => ⟨?_, h.indexes, h.value⟩
  obtain ⟨hnode, -, -⟩ := h
  cases hposition : leaf.position with
  | nil => rw [hposition] at hnode; cases hnode
  | cons i rest =>
    rw [hposition, List.nil_append] at hnode
    exact hnode

end Walk

/-! ### Every leaf, and each of them once -/

section Once

theorem Members.exists_number_le : (ms : Members) → (number : Nat) → (x : ms.El) →
    ∀ leaf ∈ ms.leaves [] number [] x, ∃ i rest, leaf.position = i :: rest ∧ number ≤ i
  | .nil, _, _, _, h => absurd h List.not_mem_nil
  | .cons _ t rest, number, x, leaf, h => by
    rcases List.mem_append.mp h with h | h
    · rw [List.nil_append, t.leaves_eq_map_under [number]] at h
      obtain ⟨leaf, -, rfl⟩ := List.mem_map.mp h
      exact ⟨number, leaf.position, rfl, Nat.le_refl _⟩
    · obtain ⟨i, others, hposition, hi⟩ := rest.exists_number_le _ x.2 leaf h
      refine ⟨i, others, hposition, Nat.le_trans ?_ hi⟩
      split <;> omega

theorem nodup_map_place_under {leaves : List Leaf} (h : (leaves.map Leaf.place).Nodup)
    (position indexes : List Nat) :
    ((leaves.map (Leaf.under position indexes)).map Leaf.place).Nodup := by
  have hplaces : (leaves.map (Leaf.under position indexes)).map Leaf.place =
      (leaves.map Leaf.place).map fun p => (position ++ p.1, indexes ++ p.2) := by
    rw [List.map_map, List.map_map]
    rfl
  rw [hplaces]
  refine h.map ?_
  intro p q hpq
  obtain ⟨hfirst, hsecond⟩ := Prod.mk.inj hpq
  exact Prod.ext (List.append_cancel_left hfirst) (List.append_cancel_left hsecond)

mutual

theorem MemberType.nodup_leaves : (t : MemberType) → (x : t.El) →
    ((t.leaves [] [] x).map Leaf.place).Nodup
  | .cell _, _ => List.nodup_singleton _
  | .rows form _ ms _, xs => by
    rw [MemberType.leaves, List.map_flatMap, List.nodup_flatMap]
    constructor
    · intro p _
      rw [ms.leaves_eq_map_under [] 0]
      exact nodup_map_place_under (ms.nodup_leaves 0 p.1) _ _
    · -- leaves of different elements differ in the first index
      have hindexes : ((form.items xs).zipIdx.map Prod.snd).Nodup := by
        rw [List.zipIdx_map_snd]
        exact List.nodup_range'
      refine (List.pairwise_map.mp hindexes).imp fun {p q} hne place hp hq => hne ?_
      dsimp only at hp hq
      rw [ms.leaves_eq_map_under [] 0] at hp hq
      obtain ⟨_, hleaf, rfl⟩ := List.mem_map.mp hp
      obtain ⟨_, hother, hsame⟩ := List.mem_map.mp hq
      obtain ⟨leaf, -, rfl⟩ := List.mem_map.mp hleaf
      obtain ⟨other, -, rfl⟩ := List.mem_map.mp hother
      exact (List.cons.inj (Prod.mk.inj hsame).2).1.symm
  | .converted _, _ => List.nodup_singleton _
  | .ignored _, _ => List.nodup_nil

theorem Members.nodup_leaves : (ms : Members) → (number : Nat) → (x : ms.El) →
    ((ms.leaves [] number [] x).map Leaf.place).Nodup
  | .nil, _, _ => List.nodup_nil
  | .cons _ t rest, number, x => by
    rw [Members.leaves, List.map_append, List.nodup_append]
    refine ⟨?_, rest.nodup_leaves _ x.2, ?_⟩
    · rw [List.nil_append, t.leaves_eq_map_under [number]]
      exact nodup_map_place_under (t.nodup_leaves x.1) _ _
    · -- a member that has leaves is data, and the members behind it have higher numbers
      rintro place hplace _ hother rfl
      rw [List.nil_append, t.leaves_eq_map_under [number]] at hplace
      obtain ⟨_, hleaf, rfl⟩ := List.mem_map.mp hplace
      obtain ⟨leaf, hmem, rfl⟩ := List.mem_map.mp hleaf
      have hdata : t.isData = true := by
        cases t with
        | ignored _ => exact absurd hmem List.not_mem_nil
        | _ => rfl
      obtain ⟨other, hrest, hsame⟩ := List.mem_map.mp hother
      obtain ⟨i, _, hposition, hi⟩ := rest.exists_number_le _ x.2 other hrest
      rw [if_pos hdata] at hi
      have hnumber : other.position = number :: leaf.position := (Prod.mk.inj hsame).1
      rw [hposition] at hnumber
      have := (List.cons.inj hnumber).1
      omega

end

/-- Below the node of a leaf there is nothing, and it takes no indexes. -/
theorem place_of_get_leaf {ρ : Type} {d : FieldDescriptor} {get : ρ → Value}
    {set : ρ → Value → Except CellError ρ} {position : List Nat} {m : PropertyNode ρ} {row : ρ}
    {indexes : List Nat} {v : Value}
    (hm : (PropertyNode.leaf d get set).descend? position = some m)
    (hv : m.get row indexes = .ok v) : position = [] ∧ indexes = [] := by
  cases position with
  | nil =>
    cases hm
    exact ⟨rfl, List.length_eq_zero_iff.mp (PropertyNode.length_eq_depth_of_get hv)⟩
  | cons i rest => cases hm

/-- A data member has one node. -/
theorem MemberType.exists_nodes_eq {ρ : Type} (d : RecordDecl) (info : MemberInfo) (t : MemberType)
    (len : Lens ρ t.El) (h : t.isData = true) : ∃ n, t.nodes d info len = [n] := by
  cases t with
  | ignored _ => cases h
  | _ => exact ⟨_, rfl⟩

mutual

/-- A leaf of a member that can be read through its node is among the leaves of the member. -/
theorem MemberType.mem_leaves_of_get {ρ : Type} (d : RecordDecl) (info : MemberInfo) :
    (t : MemberType) →
    (len : Lens ρ t.El) → (row : ρ) → (number : Nat) → ∀ n ∈ t.nodes d info len,
    ∀ position m indexes v, n.descend? position = some m → m.get row indexes = .ok v →
      (number :: position, indexes) ∈ (t.leaves [number] [] (len.get row)).map Leaf.place
  | .cell t, len, row, number, n, hn, position, m, indexes, v, hm, hv => by
    rw [MemberType.nodes, List.mem_singleton] at hn
    obtain ⟨rfl, rfl⟩ := place_of_get_leaf (hn ▸ hm) hv
    exact List.mem_cons_self
  | .rows form head ms _, len, row, number, n, hn, position, m, indexes, v, hm, hv => by
    rw [MemberType.nodes, List.mem_singleton] at hn
    subst hn
    cases position with
    | nil =>
      -- a vertical node has no value of its own
      cases hm
      cases PropertyNode.isLeaf_of_get hv
    | cons j rest =>
      rw [PropertyNode.descend?_vertical] at hm
      obtain ⟨m, hbelow, rfl⟩ := Option.map_eq_some_iff.mp hm
      obtain ⟨i, indexes, x, rfl, hx, hv⟩ := PropertyNode.exists_of_get_lift hv
      have hplace := ms.mem_leaves_of_get (head.decl ms) Lens.whole x 0 j rest m indexes v hbelow hv
      rw [Nat.zero_add] at hplace
      obtain ⟨leaf, hleaf, hplace⟩ := List.mem_map.mp hplace
      refine List.mem_map.mpr ⟨leaf.under [number] [i], ?_, ?_⟩
      · refine List.mem_flatMap.mpr ⟨(x, i), List.mem_zipIdx_iff_getElem?.mpr hx, ?_⟩
        rw [ms.leaves_eq_map_under [number] 0]
        exact List.mem_map_of_mem hleaf
      · rw [Leaf.place_under, hplace]
        rfl
  | .converted c, len, row, number, n, hn, position, m, indexes, v, hm, hv => by
    rw [MemberType.nodes, List.mem_singleton] at hn
    obtain ⟨rfl, rfl⟩ := place_of_get_leaf (hn ▸ hm) hv
    exact List.mem_cons_self
  | .ignored _, _, _, _, n, hn, _, _, _, _, _, _ => absurd hn List.not_mem_nil

/-- A leaf that can be read through the nodes of members is among the leaves of the members. -/
theorem Members.mem_leaves_of_get {ρ : Type} (d : RecordDecl) : (ms : Members) →
    (len : Lens ρ ms.El) → (row : ρ) → (number : Nat) → ∀ i position m indexes v,
    descendIn? (ms.nodes d len) (i :: position) = some m → m.get row indexes = .ok v →
      ((number + i) :: position, indexes) ∈
        (ms.leaves [] number [] (len.get row)).map Leaf.place
  | .nil, _, _, _, _, _, _, _, _, hm, _ => by cases hm
  | .cons info t rest, len, row, number, i, position, m, indexes, v, hm, hv => by
    rw [Members.leaves, List.map_append, List.mem_append]
    rw [Members.nodes] at hm
    by_cases hdata : t.isData = true
    · obtain ⟨n, hn⟩ := t.exists_nodes_eq d info len.first hdata
      rw [hn] at hm
      rw [if_pos hdata]
      cases i with
      | zero =>
        -- the node is that of the first member, or below it
        exact Or.inl (t.mem_leaves_of_get d info len.first row number n
          (hn ▸ List.mem_cons_self) position m indexes v hm hv)
      | succ i =>
        have hrest :=
          rest.mem_leaves_of_get d len.second row (number + 1) i position m indexes v hm hv
        rw [Nat.add_right_comm, Nat.add_assoc] at hrest
        exact Or.inr hrest
    · have hn : t.nodes d info len.first = [] := by
        cases t with
        | ignored _ => rfl
        | _ => exact absurd rfl hdata
      rw [hn] at hm
      rw [if_neg hdata]
      exact Or.inr (rest.mem_leaves_of_get d len.second row number i position m indexes v hm hv)

end

end Once

/-- No leaf of a row is enumerated twice. -/
theorem RecordType.nodup_leaves (r : RecordType) (row : r.Row) :
    ((r.leaves row).map Leaf.place).Nodup :=
  r.members.nodup_leaves 0 row

/-- What can be read from a row, at any position of the tree and through any indexes, is a leaf. -/
theorem RecordType.mem_leaves_of_get (r : RecordType) (row : r.Row) {position indexes : List Nat}
    {n : PropertyNode r.Row} {v : Value} (hn : r.properties.descend? position = some n)
    (hv : n.get row indexes = .ok v) : (position, indexes) ∈ (r.leaves row).map Leaf.place := by
  cases position with
  | nil =>
    -- the root has no value
    cases hn
    cases PropertyNode.isLeaf_of_get hv
  | cons i rest =>
    have hmem := r.members.mem_leaves_of_get r.decl Lens.whole row 0 i rest n indexes v hn hv
    rwa [Nat.zero_add] at hmem

/-- The walk through a row meets its leaves: for each data member in the order of declaration the
member itself, or, if it is vertical, the leaves of its elements in their order. It meets each of
them once, and all that can be read. A leaf takes as many indexes as its node is deep, and reading
it there gives the value of the member. Nodes are told apart by their position in the tree. -/
theorem RecordType.walk_visits_each_leaf_once (r : RecordType) (row : r.Row) :
    List.Forall₂ (Leaf.At r.properties.descend? row) (r.leaves row) (r.properties.walk row) ∧
      ((r.leaves row).map Leaf.place).Nodup ∧
      (∀ s ∈ r.properties.walk row, s.2.length = s.1.depth ∧ ∃ v, s.1.get row s.2 = .ok v) ∧
      ∀ position indexes, (position, indexes) ∈ (r.leaves row).map Leaf.place ↔
        ∃ n v, r.properties.descend? position = some n ∧ n.get row indexes = .ok v := by
  have hwalk := r.leaves_eq_walk row
  refine ⟨hwalk, r.nodup_leaves row, fun s hs => ?_, fun position indexes => ⟨fun h => ?_, ?_⟩⟩
  · obtain ⟨leaf, -, hat⟩ := exists_of_mem_forall₂ hwalk hs
    exact ⟨PropertyNode.length_eq_depth_of_get hat.value, leaf.value, hat.value⟩
  · obtain ⟨leaf, hleaf, hplace⟩ := List.mem_map.mp h
    obtain ⟨s, -, hat⟩ := exists_of_mem_forall₂ hwalk.flip hleaf
    obtain ⟨rfl, rfl⟩ := Prod.mk.inj hplace
    exact ⟨s.1, leaf.value, hat.node, hat.indexes ▸ hat.value⟩
  · rintro ⟨n, v, hn, hv⟩
    exact r.mem_leaves_of_get row hn hv

end TypedSheets
