import TypedSheets.Proofs.Property.Enumeration

/-!
# A place in a row

A leaf of a row is at a place: a position among the data members and an index for each list on the
way. Here the leaf at a place is read and written by recursion on the types of the members, without
a tree. The write is one in place: it gives the part of the row as it is when the write is over,
also where the write failed. The nodes of a property tree do the same.

## Main definitions

* `LeafType`, `RecordType.leafType?` — what stands at a position
* `RecordType.readAt`, `RecordType.writeAt` — reading and writing at a place
* `PropertyNode.Operates` — a node reads and writes what stands at a position of a part of the row

## Main results

* `PropertyNode.Operates.lift` — so does the node below an element of a list
* `RecordType.operates` — every leaf of a property tree does what its position says
-/

namespace TypedSheets

open PropertyNode (descend? descendIn?)

/-! ### Leaves by their types -/

/-- What a member that is a leaf holds. -/
inductive LeafType where
  | cell (t : CellType)
  | converted (c : Converter)

/-- What is read from a value, as it is shown afterwards. -/
def LeafType.reread : LeafType → Value → Except CellError Value
  | .cell t, v => (t.read .pascal v).map (t.print .pascal)
  | .converted c, v => (c.read v).map c.print

/-- Of the first of some members and those behind it, chooses by the number of a data member. -/
def MemberType.pick {β : Type} (t : MemberType) (number : Nat) (first : β) (behind : Nat → β) : β :=
  if t.isData then
    match number with
    | 0 => first
    | number + 1 => behind number
  else behind number

/-- The number of the member behind the first that has that number there. -/
def MemberType.behind (t : MemberType) (number : Nat) : Nat :=
  if t.isData then number + 1 else number

/-- A number chooses the first member, which is data then, or one behind it. -/
theorem MemberType.pick_cases (t : MemberType) (number : Nat) :
    (t.isData = true ∧ number = 0 ∧ ∀ {β : Type} (first : β) (behind : Nat → β),
      t.pick number first behind = first) ∨
    ∃ later, number = t.behind later ∧ ∀ {β : Type} (first : β) (behind : Nat → β),
      t.pick number first behind = behind later := by
  by_cases hdata : t.isData = true
  · cases number with
    | zero => exact .inl ⟨hdata, rfl, fun _ _ => if_pos hdata⟩
    | succ later => exact .inr ⟨later, (if_pos hdata).symm, fun _ _ => if_pos hdata⟩
  · exact .inr ⟨number, (if_neg hdata).symm, fun _ _ => if_neg hdata⟩

mutual

/-- The leaf at a position below a member. -/
def MemberType.leafType? : MemberType → (position : List Nat) → Option LeafType
  | .cell t, [] => some (.cell t)
  | .converted c, [] => some (.converted c)
  | .rows _ _ ms _, i :: position => ms.leafType? i position
  | _, _ => none

/-- The leaf at a position below the data member with that number. -/
def Members.leafType? : Members → (number : Nat) → (position : List Nat) → Option LeafType
  | .nil, _, _ => none
  | .cons _ t rest, number, position =>
    t.pick number (t.leafType? position) fun later => rest.leafType? later position

end

/-- The leaf at a position of a record type. -/
def RecordType.leafType? (r : RecordType) : (position : List Nat) → Option LeafType
  | [] => none
  | number :: position => r.members.leafType? number position

/-! ### Reading and writing at a place

The errors name no path; the node that reports them puts its own path in. -/

/-- What stands there is no leaf. -/
def noLeaf : AccessError := .notALeaf ""

mutual

/-- The value at a place of a member. -/
def MemberType.readAt : (t : MemberType) → (position indexes : List Nat) → t.El →
    Except AccessError Value
  | .cell t, [], [] => fun x => .ok (t.print .pascal x)
  | .converted c, [], [] => fun y => .ok (c.print y)
  | .rows form _ ms _, number :: position, i :: indexes => fun xs =>
    match (form.items xs)[i]? with
    | some x => ms.readAt number position indexes x
    | none => .error (.outOfRange "" i (form.items xs).length)
  | _, _, _ => fun _ => .error noLeaf

/-- The value at a place of the data member with that number. -/
def Members.readAt : (ms : Members) → (number : Nat) → (position indexes : List Nat) → ms.El →
    Except AccessError Value
  | .nil, _, _, _ => fun _ => .error noLeaf
  | .cons _ t rest, number, position, indexes => fun x =>
    t.pick number (t.readAt position indexes x.1) fun later =>
      rest.readAt later position indexes x.2

end

section Write

variable {α β : Type}

/-- A part of a row with what was read in its place, if it was read. -/
def assigned (x : α) : Except CellError α → α × Except AccessError Unit
  | .ok y => (y, .ok ())
  | .error cause => (x, .error (.cell "" cause))

/-- A write in the first part of a pair. -/
def inFirst (write : α → α × Except AccessError Unit) (x : α × β) :
    (α × β) × Except AccessError Unit :=
  (((write x.1).1, x.2), (write x.1).2)

/-- A write in the second part of a pair. -/
def inSecond (write : β → β × Except AccessError Unit) (x : α × β) :
    (α × β) × Except AccessError Unit :=
  ((x.1, (write x.2).1), (write x.2).2)

end Write

mutual

/-- The member after a write at a place, and whether the write succeeded. The elements on the way
are written back in any case. -/
def MemberType.writeAt (v : Value) : (t : MemberType) → (position indexes : List Nat) → t.El →
    t.El × Except AccessError Unit
  | .cell t, [], [] => fun x => assigned x (t.read .pascal v)
  | .converted c, [], [] => fun x => assigned x (c.read v)
  | .rows form _ ms _, number :: position, i :: indexes => fun xs =>
    match (form.items xs)[i]? with
    | some x =>
      let written := ms.writeAt v number position indexes x
      (form.set xs i written.1, written.2)
    | none => (xs, .error (.outOfRange "" i (form.items xs).length))
  | _, _, _ => fun x => (x, .error noLeaf)

/-- The members after a write at a place of the data member with that number. -/
def Members.writeAt (v : Value) : (ms : Members) → (number : Nat) → (position indexes : List Nat) →
    ms.El → ms.El × Except AccessError Unit
  | .nil, _, _, _ => fun x => (x, .error noLeaf)
  | .cons _ t rest, number, position, indexes => fun x =>
    t.pick number (inFirst (t.writeAt v position indexes) x) fun later =>
      inSecond (rest.writeAt v later position indexes) x

end

section Cons

variable (info : MemberInfo) (t : MemberType) (rest : Members) (number : Nat)
  (position indexes : List Nat) (x : (Members.cons info t rest).El)

theorem Members.readAt_cons : (Members.cons info t rest).readAt number position indexes x =
    t.pick number (t.readAt position indexes x.1) fun later =>
      rest.readAt later position indexes x.2 := rfl

theorem Members.writeAt_cons (v : Value) :
    (Members.cons info t rest).writeAt v number position indexes x =
      @MemberType.pick ((t.El × rest.El) × Except AccessError Unit) t number
        (inFirst (t.writeAt v position indexes) x)
        fun later => inSecond (rest.writeAt v later position indexes) x := rfl

end Cons

namespace RecordType

/-- Goes on only with one index for each list on the way to a position. -/
def atPlace {β : Type} (path : String) (position indexes : List Nat) (refused : AccessError → β)
    (act : (number : Nat) → (below : List Nat) → β) : β :=
  match position with
  | [] => refused (.notALeaf path)
  | number :: below =>
    if indexes.length = below.length then act number below
    else refused (.indexDepth path below.length indexes.length)

/-- The value at a place of a row; errors name the path. -/
def readAt (r : RecordType) (path : String) (position indexes : List Nat) (row : r.Row) :
    Except AccessError Value :=
  atPlace path position indexes .error fun number below =>
    (r.members.readAt number below indexes row).mapError (.withPath path)

/-- The row after a write at a place, and whether the write succeeded; errors name the path. -/
def writeAt (r : RecordType) (path : String) (v : Value) (position indexes : List Nat)
    (row : r.Row) : r.Row × Except AccessError Unit :=
  atPlace path position indexes (fun e => (row, .error e)) fun number below =>
    let written := r.members.writeAt v number below indexes row
    (written.1, written.2.mapError (.withPath path))

end RecordType

/-! ### Nodes at their places -/

theorem AccessError.withPath_withPath (path other : String) (e : AccessError) :
    (e.withPath other).withPath path = e.withPath path := by
  cases e <;> rfl

theorem mapError_withPath {β : Type} (path other : String) (x : Except AccessError β) :
    (x.mapError (AccessError.withPath other)).mapError (AccessError.withPath path) =
      x.mapError (AccessError.withPath path) := by
  cases x with
  | error e => exact congrArg Except.error (e.withPath_withPath path other)
  | ok b => rfl

namespace PropertyNode

variable {ρ α : Type}

section Lift

variable (e : Elements ρ α) (parent : String) {m : PropertyNode α} (hleaf : m.isLeaf = true)
  (row : ρ) (i : Nat) {indexes : List Nat} (hdepth : indexes.length = m.depth)

include hleaf hdepth

/-- A leaf below an element is read through the element, if there is one. -/
theorem get_lift_eq : (m.lift e parent).get row (i :: indexes) =
    e.atIndex (parent ++ "." ++ m.path) row (i :: indexes) fun _ x rest => m.get x rest := by
  have hlift : (i :: indexes).length = (m.lift e parent).depth := by simp [hdepth]
  rw [PropertyNode.get, checked_of_eq hlift, access_lift]
  rw [isLeaf] at hleaf
  cases haccess : m.access with
  | leaf get set =>
    simp [Access.lift, Elements.atIndex, PropertyNode.get, checked_of_eq hdepth, haccess]
  | _ => simp [haccess] at hleaf

/-- A leaf below an element is written through the element, if there is one. -/
theorem set_lift_eq (v : Value) : (m.lift e parent).set row (i :: indexes) v =
    e.atIndex (parent ++ "." ++ m.path) row (i :: indexes) fun i x rest =>
      (m.set x rest v).map (e.set row i) := by
  have hlift : (i :: indexes).length = (m.lift e parent).depth := by simp [hdepth]
  rw [PropertyNode.set, checked_of_eq hlift, access_lift]
  rw [isLeaf] at hleaf
  cases haccess : m.access with
  | leaf get set =>
    simp [Access.lift, Elements.atIndex, PropertyNode.set, checked_of_eq hdepth, haccess]
  | _ => simp [haccess] at hleaf

end Lift

/-- A node is a leaf that reads and writes a part of the row in the given way. -/
structure Operates (m : PropertyNode ρ) (len : Lens ρ α) (depth : Nat)
    (read : List Nat → α → Except AccessError Value)
    (write : Value → List Nat → α → α × Except AccessError Unit) : Prop where
  depth_eq : m.depth = depth
  get_eq : ∀ row indexes, indexes.length = depth →
    m.get row indexes = (read indexes (len.get row)).mapError (AccessError.withPath m.path)
  set_eq : ∀ row indexes v, indexes.length = depth →
    m.set row indexes v =
      ((write v indexes (len.get row)).2.mapError (AccessError.withPath m.path)).map
        fun _ => len.set row (write v indexes (len.get row)).1

/-- Below an element of a list a node reads and writes the part of that element. -/
theorem Operates.lift {form : RowsForm} {head : RecordHead} {ms : Members} {m : PropertyNode ms.El}
    {number : Nat} {position : List Nat} (len : Lens ρ (form.Holder ms.El)) (parent : String)
    (hleaf : m.isLeaf = true)
    (h : m.Operates Lens.whole position.length (ms.readAt number position)
      fun v => ms.writeAt v number position) :
    (m.lift (Lens.elements form len) parent).Operates len (position.length + 1)
      ((MemberType.rows form head ms via).readAt (number :: position))
      fun v => (MemberType.rows form head ms via).writeAt v (number :: position) where
  depth_eq := by rw [depth_lift, h.depth_eq]
  -- the first index is of a row in this member, and the others belong to the node below
  get_eq row indexes hlength := by
    obtain ⟨i, indexes, rfl⟩ := List.exists_cons_of_length_eq_add_one hlength
    have hbelow : indexes.length = position.length := Nat.succ.inj hlength
    rw [get_lift_eq _ _ hleaf row i (hbelow.trans h.depth_eq.symm), path_lift]
    cases hx : (form.items (len.get row))[i]? with
    | none => simp [Elements.atIndex, Lens.elements, MemberType.readAt, hx, Except.mapError,
        AccessError.withPath]
    | some x =>
      rw [atIndex_cons (Lens.elements form len) hx, h.get_eq x indexes hbelow, mapError_withPath]
      simp only [MemberType.readAt, hx]
      rfl
  set_eq row indexes v hlength := by
    obtain ⟨i, indexes, rfl⟩ := List.exists_cons_of_length_eq_add_one hlength
    have hbelow : indexes.length = position.length := Nat.succ.inj hlength
    rw [set_lift_eq _ _ hleaf row i (hbelow.trans h.depth_eq.symm), path_lift]
    cases hx : (form.items (len.get row))[i]? with
    | none => simp [Elements.atIndex, Lens.elements, MemberType.writeAt, hx, Except.mapError,
        AccessError.withPath, Except.map]
    | some x =>
      rw [atIndex_cons (Lens.elements form len) hx, h.set_eq x indexes v hbelow]
      simp only [MemberType.writeAt, hx]
      change Except.mapError _ (Except.map _ (Except.map _
        (Except.mapError _ (ms.writeAt v number position indexes x).2))) = _
      cases (ms.writeAt v number position indexes x).2 with
      | error e => exact congrArg Except.error (e.withPath_withPath _ _)
      | ok _ => rfl

theorem Operates.congr {m : PropertyNode ρ} {len : Lens ρ α} {depth : Nat}
    {read read' : List Nat → α → Except AccessError Value}
    {write write' : Value → List Nat → α → α × Except AccessError Unit}
    (h : m.Operates len depth read write) (hread : ∀ indexes x, read' indexes x = read indexes x)
    (hwrite : ∀ v indexes x, write' v indexes x = write v indexes x) :
    m.Operates len depth read' write' where
  depth_eq := h.depth_eq
  get_eq row indexes hlength := by rw [h.get_eq row indexes hlength, hread]
  set_eq row indexes v hlength := by rw [h.set_eq row indexes v hlength, hwrite]

theorem Operates.first {β : Type} {m : PropertyNode ρ} {len : Lens ρ (α × β)} {depth : Nat}
    {read : List Nat → α → Except AccessError Value}
    {write : Value → List Nat → α → α × Except AccessError Unit}
    (h : m.Operates len.first depth read write) :
    m.Operates len depth (fun indexes x => read indexes x.1) fun v indexes =>
      inFirst (write v indexes) :=
  ⟨h.depth_eq, h.get_eq, h.set_eq⟩

theorem Operates.second {β : Type} {m : PropertyNode ρ} {len : Lens ρ (α × β)} {depth : Nat}
    {read : List Nat → β → Except AccessError Value}
    {write : Value → List Nat → β → β × Except AccessError Unit}
    (h : m.Operates len.second depth read write) :
    m.Operates len depth (fun indexes x => read indexes x.2) fun v indexes =>
      inSecond (write v indexes) :=
  ⟨h.depth_eq, h.get_eq, h.set_eq⟩

/-- The node of a member that is read and written as a whole does both. -/
theorem operates_leaf (d : FieldDescriptor) (len : Lens ρ α) {print : α → Value}
    {convert : Value → Except CellError α} {read : List Nat → α → Except AccessError Value}
    {write : Value → List Nat → α → α × Except AccessError Unit}
    (hread : ∀ x, read [] x = .ok (print x))
    (hwrite : ∀ v x, write v [] x = assigned x (convert v)) :
    (leaf d (fun row => print (len.get row)) fun row v => (convert v).map (len.set row)).Operates
      len 0 read write where
  depth_eq := rfl
  get_eq row indexes hlength := by
    obtain rfl := List.length_eq_zero_iff.mp hlength
    rw [hread]
    rfl
  set_eq row indexes v hlength := by
    obtain rfl := List.length_eq_zero_iff.mp hlength
    rw [hwrite]
    change Except.mapError _ (Except.map (len.set row) (convert v)) = _
    cases convert v <;> rfl

end PropertyNode

open PropertyNode (operates_leaf)

/-- Among the nodes of members stands at a number the node of the first, or one behind it. -/
theorem Members.getElem?_nodes {ρ : Type} (d : RecordDecl) (info : MemberInfo) (t : MemberType)
    (rest : Members) (len : Lens ρ (Members.cons info t rest).El) (number : Nat) :
    ((Members.cons info t rest).nodes d len)[number]? =
      t.pick number (t.nodes d info len.first)[0]? fun later =>
        (rest.nodes d len.second)[later]? := by
  rw [Members.nodes]
  -- the number is the member's own, or it counts on into the rest
  obtain ⟨hdata, rfl, hpick⟩ | ⟨later, rfl, hpick⟩ := t.pick_cases number
  · obtain ⟨n, hn⟩ := t.exists_nodes_eq d info len.first hdata
    rw [hpick, hn]
    rfl
  · rw [hpick, MemberType.behind]
    by_cases hdata : t.isData = true
    · obtain ⟨n, hn⟩ := t.exists_nodes_eq d info len.first hdata
      rw [hn, if_pos hdata]
      rfl
    · have hn : t.nodes d info len.first = [] := by
        cases t with
        | ignored _ => rfl
        | _ => exact absurd rfl hdata
      rw [hn, if_neg hdata, List.nil_append]

theorem Members.descendIn?_nodes {ρ : Type} (d : RecordDecl) (info : MemberInfo) (t : MemberType)
    (rest : Members) (len : Lens ρ (Members.cons info t rest).El) (number : Nat)
    (position : List Nat) :
    descendIn? ((Members.cons info t rest).nodes d len) (number :: position) =
      t.pick number (descendIn? (t.nodes d info len.first) (0 :: position)) fun later =>
        descendIn? (rest.nodes d len.second) (later :: position) := by
  rw [descendIn?, Members.getElem?_nodes]
  obtain ⟨-, -, hpick⟩ | ⟨later, -, hpick⟩ := t.pick_cases number <;> rw [hpick, hpick] <;> rfl

mutual

/-- A leaf at or below the node of a member does what its position says. -/
theorem MemberType.operates {ρ : Type} (d : RecordDecl) (info : MemberInfo) : (t : MemberType) →
    (len : Lens ρ t.El) → ∀ position m,
    descendIn? (t.nodes d info len) (0 :: position) = some m → m.isLeaf = true →
      (t.leafType? position).isSome = true ∧
        m.Operates len position.length (t.readAt position) fun v => t.writeAt v position
  | .cell t, len, position, m, hm, hleaf => by
    cases position with
    | nil =>
      cases hm
      exact ⟨rfl, operates_leaf _ len (fun _ => rfl) fun _ _ => rfl⟩
    | cons number position => cases hm
  | .rows form head ms _, len, position, m, hm, hleaf => by
    cases position with
    | nil =>
      -- a vertical node is no leaf
      cases hm
      cases hleaf
    | cons number position =>
      change (PropertyNode.vertical _ _ _).descend? (number :: position) = some m at hm
      rw [PropertyNode.descend?_vertical] at hm
      obtain ⟨m, hbelow, rfl⟩ := Option.map_eq_some_iff.mp hm
      rw [PropertyNode.isLeaf_lift] at hleaf
      obtain ⟨htype, hoperates⟩ :=
        ms.operates (head.decl ms) Lens.whole number position m hbelow hleaf
      exact ⟨htype, hoperates.lift len _ hleaf⟩
  | .converted c, len, position, m, hm, hleaf => by
    cases position with
    | nil =>
      cases hm
      exact ⟨rfl, operates_leaf _ len (fun _ => rfl) fun _ _ => rfl⟩
    | cons number position => cases hm
  | .ignored _, _, _, _, hm, _ => by cases hm

/-- A leaf at or below the nodes of members does what its position says. -/
theorem Members.operates {ρ : Type} (d : RecordDecl) : (ms : Members) → (len : Lens ρ ms.El) →
    ∀ number position m, descendIn? (ms.nodes d len) (number :: position) = some m →
    m.isLeaf = true →
      (ms.leafType? number position).isSome = true ∧
        m.Operates len position.length (ms.readAt number position)
          fun v => ms.writeAt v number position
  | .nil, _, _, _, _, hm, _ => by cases hm
  | .cons info t rest, len, number, position, m, hm, hleaf => by
    rw [Members.descendIn?_nodes] at hm
    obtain ⟨-, -, hpick⟩ | ⟨later, -, hpick⟩ := t.pick_cases number
    · rw [hpick] at hm
      obtain ⟨htype, hoperates⟩ := t.operates d info len.first position m hm hleaf
      refine ⟨?_, hoperates.first.congr (fun _ _ => hpick _ _) fun _ _ _ => hpick _ _⟩
      rwa [Members.leafType?, hpick]
    · rw [hpick] at hm
      obtain ⟨htype, hoperates⟩ := rest.operates d len.second later position m hm hleaf
      refine ⟨?_, hoperates.second.congr (fun _ _ => hpick _ _) fun _ _ _ => hpick _ _⟩
      rwa [Members.leafType?, hpick]

end

/-- Every leaf of the tree of a record type reads and writes what its position says. -/
theorem RecordType.operates (r : RecordType) {position : List Nat} {n : PropertyNode r.Row}
    (hn : r.properties.descend? position = some n) (hleaf : n.isLeaf = true) :
    (∃ T, r.leafType? position = some T) ∧
      ∀ row indexes, n.get row indexes = r.readAt n.path position indexes row ∧
        ∀ v, n.set row indexes v = (r.writeAt n.path v position indexes row).2.map
          fun _ => (r.writeAt n.path v position indexes row).1 := by
  cases position with
  | nil =>
    -- the root is no leaf
    cases hn
    cases hleaf
  | cons number below =>
    obtain ⟨htype, hoperates⟩ := r.members.operates r.decl Lens.whole number below n hn hleaf
    refine ⟨Option.isSome_iff_exists.mp htype, fun row indexes => ?_⟩
    rw [readAt, atPlace]
    by_cases hlength : indexes.length = below.length
    · refine ⟨?_, fun v => ?_⟩
      · rw [if_pos hlength, hoperates.get_eq row indexes hlength]
        rfl
      · rw [writeAt, atPlace, if_pos hlength, hoperates.set_eq row indexes v hlength]
        rfl
    · have hdepth : indexes.length ≠ n.depth := hoperates.depth_eq ▸ hlength
      refine ⟨?_, fun v => ?_⟩
      · rw [if_neg hlength, PropertyNode.get, PropertyNode.checked_of_ne hdepth,
          hoperates.depth_eq]
      · rw [writeAt, atPlace, if_neg hlength, PropertyNode.set, PropertyNode.checked_of_ne hdepth,
          hoperates.depth_eq]
        rfl

end TypedSheets
