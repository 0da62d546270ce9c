import TypedSheets.Property.Node

/-!
# The leaves of a property tree

* `PropertyNode.walk` — every leaf of a row with its indexes, by a stack of nodes to visit
* `PropertyNode.leafNodes` — the leaves of the tree, whatever the row
* `PropertyNode.find?` — the node of a path
-/

namespace TypedSheets

namespace PropertyNode

variable {ρ : Type}

/-- The number of elements of a list of records; none if it cannot be reached. -/
def countOrZero (count : ρ → List Nat → Except AccessError Nat) (row : ρ) (indexes : List Nat) :
    Nat :=
  match count row indexes with
  | .ok n => n
  | .error _ => 0

mutual

/-- The number of visits that a node takes. -/
def visits (row : ρ) : (indexes : List Nat) → PropertyNode ρ → Nat
  | indexes, .mk _ _ _ .root children => 1 + visitsEach row indexes children
  | _, .mk _ _ _ (.leaf _ _) _ => 1
  | indexes, .mk _ _ _ (.vertical count) children =>
    1 + (List.range (countOrZero count row indexes)).foldr
      (fun i n => visitsEach row (indexes ++ [i]) children + n) 0

/-- The number of visits that nodes take. -/
def visitsEach (row : ρ) : (indexes : List Nat) → List (PropertyNode ρ) → Nat
  | _, [] => 0
  | indexes, n :: rest => visits row indexes n + visitsEach row indexes rest

end

/-- A node to visit, with the indexes that lead to it. -/
abbrev Site (ρ : Type) := PropertyNode ρ × List Nat

/-- The nodes below a node, each with its indexes, in the order in which they are visited. -/
def sitesBelow (row : ρ) : Site ρ → List (Site ρ)
  | (.mk _ _ _ .root children, indexes) => children.map fun c => (c, indexes)
  | (.mk _ _ _ (.leaf _ _) _, _) => []
  | (.mk _ _ _ (.vertical count) children, indexes) =>
    (List.range (countOrZero count row indexes)).flatMap fun i =>
      children.map fun c => (c, indexes ++ [i])

/-- The number of visits that a stack of nodes takes. -/
def visitsOf (row : ρ) : (stack : List (Site ρ)) → Nat
  | [] => 0
  | site :: rest => visits row site.2 site.1 + visitsOf row rest

theorem visitsOf_append (row : ρ) (xs ys : List (Site ρ)) :
    visitsOf row (xs ++ ys) = visitsOf row xs + visitsOf row ys := by
  induction xs with
  | nil => simp [visitsOf]
  | cons x rest ih => simp [visitsOf, ih, Nat.add_assoc]

theorem visitsOf_map (row : ρ) (indexes : List Nat) (children : List (PropertyNode ρ)) :
    visitsOf row (children.map fun c => (c, indexes)) = visitsEach row indexes children := by
  induction children with
  | nil => simp [visitsOf, visitsEach]
  | cons c rest ih => simp [visitsOf, visitsEach, ih]

theorem visitsOf_flatMap (row : ρ) (indexes : List Nat) (children : List (PropertyNode ρ))
    (is : List Nat) :
    visitsOf row (is.flatMap fun i => children.map fun c => (c, indexes ++ [i])) =
      is.foldr (fun i n => visitsEach row (indexes ++ [i]) children + n) 0 := by
  induction is with
  | nil => simp [visitsOf]
  | cons i rest ih => simp [visitsOf_append, visitsOf_map, ih]

theorem visits_eq (row : ρ) (site : Site ρ) :
    visits row site.2 site.1 = 1 + visitsOf row (sitesBelow row site) := by
  obtain ⟨⟨path, descriptor, depth, access, children⟩, indexes⟩ := site
  cases access with
  | root => simp [visits, sitesBelow, visitsOf_map]
  | leaf get set => simp [visits, sitesBelow, visitsOf]
  | vertical count => simp [visits, sitesBelow, visitsOf_flatMap]

/-- The leaves met while the nodes on a stack are visited. -/
def walkFrom (row : ρ) (stack : List (Site ρ)) : List (Site ρ) :=
  match stack with
  | [] => []
  | site :: rest =>
    if site.1.isLeaf then site :: walkFrom row rest
    else walkFrom row (sitesBelow row site ++ rest)
termination_by visitsOf row stack
decreasing_by
  · have := visits_eq row site
    simp only [visitsOf]
    omega
  · have := visits_eq row site
    simp only [visitsOf_append, visitsOf]
    omega

/-- Every leaf of a row that is reached from the node, with its indexes. -/
def walk (n : PropertyNode ρ) (row : ρ) : List (Site ρ) := walkFrom row [(n, [])]

mutual

/-- The leaves of the tree in the order of declaration. -/
def leafNodes : PropertyNode ρ → List (PropertyNode ρ)
  | .mk path descriptor depth access children =>
    let node := PropertyNode.mk path descriptor depth access children
    (if node.isLeaf then [node] else []) ++ leafNodesEach children

/-- The leaves of trees. -/
def leafNodesEach : List (PropertyNode ρ) → List (PropertyNode ρ)
  | [] => []
  | n :: rest => n.leafNodes ++ leafNodesEach rest

end

mutual

/-- The node of that path; of several the one that stands last. The root has no path. -/
def find? (wanted : String) : PropertyNode ρ → Option (PropertyNode ρ)
  | .mk path descriptor depth access children =>
    if path == wanted && descriptor.isSome then some (.mk path descriptor depth access children)
    else findLast? wanted children

/-- The node of that path in the last tree that has one. -/
def findLast? (wanted : String) : List (PropertyNode ρ) → Option (PropertyNode ρ)
  | [] => none
  | n :: rest =>
    match findLast? wanted rest with
    | some found => some found
    | none => n.find? wanted

end

end PropertyNode

end TypedSheets
