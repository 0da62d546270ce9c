import TypedSheets.Proofs.Cell.Elements
import TypedSheets.Proofs.Property.Paths
import TypedSheets.Proofs.Property.Writing

/-!
# Replacing one element of a leaf

An element of a collection is replaced by printing the collection, replacing the element in what is
printed, and reading all of it back. So all other elements go through a round trip, and in a map
all keys do. In a row that was read from something they come out of it as they were, as long as
converters revert what they convert and members have columns of their own. Where two members of a
key share a column, two keys may print alike, and then the round trip makes one entry of two.

## Main definitions

* `LeafType.Shows` — what a leaf shows in a row that was read
* `RecordType.setElementAt` — replacing an element in place
* `RecordType.ElementReplaced` — one element differs, and nothing else
* `RecordType.ElementAccess`, `RecordType.ElementWrites` — what reading and replacing come to

## Main results

* `RecordType.shows_of_readAt` — what the leaves show
* `RecordType.elementOutcome` — how replacing an element ends
* `RecordType.setElement_outcome` — replacing an element through a node
* `RecordType.hoard_loses_key` — a map that loses an entry, as two of its keys print alike
-/

namespace TypedSheets

open PropertyNode (countOf elementOf withElement)

/-! ### Leaves of a row that was read -/

/-- What a leaf shows: a cell shows a value, which was read itself if no rows are converted, and
what a converted member shows is made by its converter. -/
def LeafType.Shows (plain : Prop) : LeafType → Value → Prop
  | .cell t, whole => ∃ y, whole = t.print .pascal y ∧ (plain → ∃ n v, t.read n v = .ok y)
  | .converted c, whole => ∃ y, whole = c.print y

section Shows

variable {plain : Prop}

mutual

/-- A leaf of a member shows a value, and one that was read if the member was. -/
theorem MemberType.shows_of_readAt : (t : MemberType) → {x : t.El} →
    (plain → t.All (fun _ => True) MemberType.HasPlainRows ∧
      ∃ name n row, t.read name n row = .ok x) →
    {position indexes : List Nat} → {T : LeafType} → t.leafType? position = some T →
    {whole : Value} → t.readAt position indexes x = .ok whole → T.Shows plain whole
  | .cell t, x, h, position, indexes, _, hT, _, hwhole => by
    cases position with
    | nil =>
      cases hT
      cases indexes with
      | nil =>
        cases hwhole
        refine ⟨x, rfl, fun hplain => ?_⟩
        obtain ⟨-, _, n, _, hread⟩ := h hplain
        exact ⟨n, _, mapError_eq_ok_iff.mp hread⟩
      | cons _ _ => cases hwhole
    | cons _ _ => cases hT
  | .rows form head ms via, xs, h, position, indexes, _, hT, _, hwhole => by
    cases position with
    | nil => cases hT
    | cons number position =>
      cases indexes with
      | nil => cases hwhole
      | cons i indexes =>
        simp only [MemberType.readAt] at hwhole
        split at hwhole
        · next x hx =>
          refine ms.shows_of_readAt (fun hplain => ?_) hT hwhole
          -- without a converter, the record with that index was read from something of its own
          obtain ⟨hrows, _, _, _, hread⟩ := h hplain
          obtain rfl : via = none := hrows.1
          obtain ⟨_, -, hread⟩ :=
            form.exists_of_mem_read (mapError_eq_ok_iff.mp hread) (List.mem_of_getElem? hx)
          obtain ⟨_, -, hread⟩ := Value.partClosed_true.of_readRecord trivial hread
          exact ⟨hrows.2, _, _, hread⟩
        · cases hwhole
  | .converted c, y, _, position, indexes, _, hT, _, hwhole => by
    cases position with
    | nil =>
      cases hT
      cases indexes with
      | nil =>
        cases hwhole
        exact ⟨y, rfl⟩
      | cons _ _ => cases hwhole
    | cons _ _ => cases hT
  | .ignored _, _, _, position, _, _, hT, _, _ => by cases position <;> cases hT

/-- A leaf of members shows a value, and one that was read if the members were. -/
theorem Members.shows_of_readAt : (ms : Members) → {x : ms.El} →
    (plain → ms.PlainRows ∧ ∃ n row, ms.read n row = .ok x) → {number : Nat} →
    {position indexes : List Nat} → {T : LeafType} → ms.leafType? number position = some T →
    {whole : Value} → ms.readAt number position indexes x = .ok whole → T.Shows plain whole
  | .nil, _, _, _, _, _, _, hT, _, _ => by cases hT
  | .cons info t rest, x, h, number, position, indexes, _, hT, _, hwhole => by
    rw [Members.readAt_cons] at hwhole
    rw [Members.leafType?] at hT
    obtain ⟨-, -, hpick⟩ | ⟨later, -, hpick⟩ := t.pick_cases number
    · rw [hpick] at hT hwhole
      refine t.shows_of_readAt (fun hplain => ?_) hT hwhole
      obtain ⟨hrows, n, row, hread⟩ := h hplain
      exact ⟨hrows.1, info.name, n, row, (Members.read_cons_eq_ok hread).1⟩
    · rw [hpick] at hT hwhole
      refine rest.shows_of_readAt (fun hplain => ?_) hT hwhole
      obtain ⟨hrows, n, row, hread⟩ := h hplain
      exact ⟨hrows.2, n, row, (Members.read_cons_eq_ok hread).2⟩

end

end Shows

theorem RecordType.shows_of_readAt {r : RecordType} {n : Naming} {raw : RawRow} {row : r.Row}
    (h : r.read n raw = .ok row) {path : String} {position indexes : List Nat} {T : LeafType}
    (hT : r.leafType? position = some T) {whole : Value}
    (hwhole : r.readAt path position indexes row = .ok whole) :
    T.Shows r.members.PlainRows whole := by
  cases position with
  | nil => cases hT
  | cons number below =>
    rw [readAt, atPlace] at hwhole
    split at hwhole
    · exact r.members.shows_of_readAt (fun hplain => ⟨hplain, _, _, h⟩) hT
        (mapError_eq_ok_iff.mp hwhole)
    · cases hwhole

/-- No converter shows a list or a map. -/
theorem Converter.not_isCollection_print (c : Converter) (y : c.output.El) :
    ¬ (c.print y).IsCollection := by
  have hinput : ∀ (input : InputType) (x : input.El), ¬ (input.print x).IsCollection := by
    intro input
    induction input with
    | scalar s =>
      intro x h
      cases s with
      | int k =>
        change (ScalarType.printInt x.val).IsCollection at h
        rw [ScalarType.printInt] at h
        split at h <;> cases h
      | _ => cases h
    | option input ih =>
      intro x h
      cases x with
      | none => cases h
      | some x => exact ih x h
  exact hinput c.input (c.revert y)

/-! ### Elements of what a node shows -/

section Dynamic

variable {whole : Value} (h : whole.IsCollection) (path : String) (i : Nat) (v : Value)

include h

theorem countOf_collection : countOf path whole = .ok whole.elements.length := by
  cases whole with
  | list items => rfl
  | map entries => rw [countOf, Value.elements, List.length_map]
  | _ => cases h

theorem elementOf_collection : elementOf path i whole =
    if hi : i < whole.elements.length then .ok whole.elements[i]
    else .error (.outOfRange path i whole.elements.length) := by
  cases whole with
  | list items =>
    simp only [elementOf, Value.elements]
    by_cases hi : i < items.length <;> simp [hi]
  | map entries =>
    simp only [elementOf, Value.elements, List.length_map]
    by_cases hi : i < entries.length <;> simp [hi]
  | _ => cases h

theorem withElement_collection : withElement path i v whole =
    if i < whole.elements.length then .ok (whole.putElement i v)
    else .error (.outOfRange path i whole.elements.length) := by
  cases whole with
  | list items => rfl
  | map entries =>
    simp only [withElement, Value.elements, List.length_map, Value.putElement]
    by_cases hi : i < entries.length
    · rw [List.getElem?_eq_getElem hi, if_pos hi, List.modify_eq_set_getElem?,
        List.getElem?_eq_getElem hi]
      rfl
    · rw [List.getElem?_eq_none (Nat.le_of_not_lt hi), if_neg hi]
  | _ => cases h

end Dynamic

section NoCollection

variable {whole : Value} (h : ¬ whole.IsCollection) (path : String) (i : Nat) (v : Value)

include h

theorem countOf_no_collection {c : Nat} (hcount : countOf path whole = .ok c) : c = 0 := by
  cases whole with
  | list _ => exact absurd trivial h
  | map _ => exact absurd trivial h
  | null =>
    cases hcount
    rfl
  | _ => cases hcount

theorem elementOf_no_collection : elementOf path i whole = .error (.notACollection path) := by
  cases whole with
  | list _ => exact absurd trivial h
  | map _ => exact absurd trivial h
  | _ => rfl

theorem withElement_no_collection : withElement path i v whole = .error (.notACollection path) := by
  cases whole with
  | list _ => exact absurd trivial h
  | map _ => exact absurd trivial h
  | _ => rfl

end NoCollection

theorem map_eq_ok_iff {ε α β : Type} {f : α → β} {r : Except ε α} {y : β} :
    r.map f = .ok y ↔ ∃ x, r = .ok x ∧ f x = y := by
  cases r <;> simp [Except.map]

theorem map_eq_error_iff {ε α β : Type} {f : α → β} {r : Except ε α} {e : ε} :
    r.map f = .error e ↔ r = .error e := by
  cases r <;> simp [Except.map]

namespace PropertyNode

variable {ρ : Type} {n : PropertyNode ρ} {row : ρ} {indexes : List Nat} {whole : Value}
  (hget : n.get row indexes = .ok whole)

include hget

theorem element_of_get (i : Nat) : n.element row i indexes = elementOf n.path i whole := by
  rw [element, hget]

/-- What is read from a node is counted, unless its kind says that it holds one value. -/
theorem count_of_get : n.count row indexes =
    if n.kind = .scalar then .error (.notACollection n.path) else countOf n.path whole := by
  rw [get, checked] at hget
  rw [count, checked]
  split at hget
  · next hlength =>
    rw [if_pos hlength]
    split at hget
    · next hleaf =>
      simp only [hleaf, hget]
    · cases hget
  · cases hget

end PropertyNode

/-! ### Replacing an element in place -/

namespace RecordType

/-- The row after an element of a collection is replaced in place, and whether that succeeded. The
collection is read, and all of it is written back. -/
def setElementAt (r : RecordType) (path : String) (v : Value) (position : List Nat) (i : Nat)
    (indexes : List Nat) (row : r.Row) : r.Row × Except AccessError Unit :=
  match r.readAt path position indexes row with
  | .error e => (row, .error e)
  | .ok whole =>
    match withElement path i v whole with
    | .error e => (row, .error e)
    | .ok whole => r.writeAt path whole position indexes row

/-- What replacing an element comes to where a leaf shows a collection: what the node gives, and
the row after the replacement in place. -/
inductive ElementOutcome (r : RecordType) (position indexes : List Nat) (n : PropertyNode r.Row)
    (T : LeafType) (row : r.Row) (whole : Value) (i : Nat) (v : Value) :
    Except AccessError r.Row → r.Row × Except AccessError Unit → Prop where
  /-- The collection has no such element. -/
  | beyond (h : whole.elements.length ≤ i) :
    ElementOutcome r position indexes n T row whole i v
      (.error (.outOfRange n.path i whole.elements.length))
      (row, .error (.outOfRange n.path i whole.elements.length))
  /-- The collection with the other element is not read. -/
  | unreadable {cause : CellError} (h : i < whole.elements.length)
    (hvalue : T.reread (whole.putElement i v) = .error cause) :
    ElementOutcome r position indexes n T row whole i v (.error (.cell n.path cause))
      (row, .error (.cell n.path cause))
  /-- The leaf shows what was read from the collection with the other element. -/
  | done {shown : Value} {row' : r.Row} (h : i < whole.elements.length)
    (hvalue : T.reread (whole.putElement i v) = .ok shown)
    (hshown : n.get row' indexes = .ok shown) (hchanged : r.ChangedAt position indexes row row') :
    ElementOutcome r position indexes n T row whole i v (.ok row') (row', .ok ())

section Replace

variable {r : RecordType} {position : List Nat} {n : PropertyNode r.Row}
  (hn : r.properties.descend? position = some n) (hleaf : n.isLeaf = true) {indexes : List Nat}

include hn hleaf

/-- A node replaces an element as it is done in place. -/
theorem setElement_eq (row : r.Row) (i : Nat) (v : Value) :
    n.setElement row i indexes v = (r.setElementAt n.path v position i indexes row).2.map
      fun _ => (r.setElementAt n.path v position i indexes row).1 := by
  obtain ⟨-, hoperates⟩ := r.operates hn hleaf
  rw [PropertyNode.setElement, setElementAt, (hoperates row indexes).1]
  cases r.readAt n.path position indexes row with
  | error e => rfl
  | ok whole =>
    dsimp only
    cases withElement n.path i v whole with
    | error e => rfl
    | ok whole => exact (hoperates row indexes).2 whole

variable {row : r.Row} {whole : Value} (hget : n.get row indexes = .ok whole)

include hget

theorem readAt_of_get : r.readAt n.path position indexes row = .ok whole :=
  ((r.operates hn hleaf).2 row indexes).1.symm.trans hget

theorem setElementAt_no_collection (hcollection : ¬ whole.IsCollection) (i : Nat) (v : Value) :
    r.setElementAt n.path v position i indexes row = (row, .error (.notACollection n.path)) := by
  rw [setElementAt, readAt_of_get hn hleaf hget]
  simp only [withElement_no_collection hcollection]

/-- Replacing an element of a collection ends in one of its ways. -/
theorem elementOutcome {T : LeafType} (hT : r.leafType? position = some T)
    (hcollection : whole.IsCollection) (i : Nat) (v : Value) :
    r.ElementOutcome position indexes n T row whole i v (n.setElement row i indexes v)
      (r.setElementAt n.path v position i indexes row) := by
  rw [setElement_eq hn hleaf, setElementAt, readAt_of_get hn hleaf hget]
  simp only [withElement_collection hcollection]
  by_cases hi : i < whole.elements.length
  · simp only [if_pos hi]
    have hframe := changedAt_of_agreeExcept (r.agreeExcept_writeAt n.path (whole.putElement i v)
      (S := fun p is => p = position ∧ is = indexes) ⟨rfl, rfl⟩ row)
    have houtcome := r.writeOutcome n.path hT (whole.putElement i v) indexes row
    generalize r.writeAt n.path _ position indexes row = written at houtcome hframe ⊢
    cases houtcome with
    -- the place was just read, so it can be reached
    | unreachable hplace => cases (readAt_of_get hn hleaf hget).symm.trans hplace
    | unreadable _ hvalue => exact .unreadable hi hvalue
    | done _ hvalue hshown =>
      refine .done hi hvalue ?_ hframe
      rwa [((r.operates hn hleaf).2 _ indexes).1]
  · simp only [if_neg hi]
    exact .beyond (Nat.le_of_not_lt hi)

end Replace

end RecordType

/-! ### What replacing an element comes to -/

/-- After an element was replaced: it shows the new value, all other elements, their number and the
keys of a map are as before, and so is all else in the row. -/
structure RecordType.ElementReplaced (r : RecordType) (position indexes : List Nat)
    (n : PropertyNode r.Row) (i : Nat) (new : Value) (row row' : r.Row) : Prop where
  element : n.element row' i indexes = .ok new
  others : ∀ j, j ≠ i → n.element row' j indexes = n.element row j indexes
  count : n.count row' indexes = n.count row indexes
  keys : (n.get row' indexes).map Value.keys = (n.get row indexes).map Value.keys
  changed : r.ChangedAt position indexes row row'

/-- Exactly the elements below the count are read. Replacing one in place either fails and leaves
the row exactly as it was, or changes no other leaf. -/
structure RecordType.ElementAccess (r : RecordType) (row : r.Row) (position indexes : List Nat)
    (n : PropertyNode r.Row) : Prop where
  element_iff : ∀ i, (∃ x, n.element row i indexes = .ok x) ↔
    ∃ c, n.count row indexes = .ok c ∧ i < c
  refused : ∀ i v e, n.setElement row i indexes v = .error e →
    r.setElementAt n.path v position i indexes row = (row, .error e)
  done : ∀ i v row', n.setElement row i indexes v = .ok row' →
    r.setElementAt n.path v position i indexes row = (row', .ok ()) ∧
      r.ChangedAt position indexes row row'

/-- Of a collection with `c` elements of a cell type one is replaced by what that type reads from
the value, and nothing else. This fails only beyond the end and where the type reads nothing. -/
structure RecordType.ElementWrites (r : RecordType) (row : r.Row) (position indexes : List Nat)
    (n : PropertyNode r.Row) (e : CellType) (c : Nat) : Prop where
  replaced : ∀ i v row', n.setElement row i indexes v = .ok row' → i < c ∧
    ∃ new, (LeafType.cell e).reread v = .ok new ∧
      r.ElementReplaced position indexes n i new row row'
  error_iff : ∀ i v e', n.setElement row i indexes v = .error e' ↔
    (c ≤ i ∧ e' = .outOfRange n.path i c) ∨
      i < c ∧ ∃ cause, (LeafType.cell e).reread v = .error cause ∧ e' = .cell n.path cause

namespace RecordType

section Collection

variable {r : RecordType} {row : r.Row} {position indexes : List Nat} {n : PropertyNode r.Row}
  {whole : Value} (hn : r.properties.descend? position = some n) (hleaf : n.isLeaf = true)
  (hget : n.get row indexes = .ok whole)

include hget

/-- A node that shows the collection with an element put in shows that and all other elements. -/
theorem elementReplaced {row' : r.Row} (hcollection : whole.IsCollection) {i : Nat}
    (hi : i < whole.elements.length) {new : Value}
    (hget' : n.get row' indexes = .ok (whole.putElement i new))
    (hchanged : r.ChangedAt position indexes row row') :
    r.ElementReplaced position indexes n i new row row' := by
  have hcollection' := hcollection.putElement i new
  have hlength : (whole.putElement i new).elements.length = whole.elements.length := by
    rw [Value.elements_putElement, List.length_set]
  refine ⟨?_, fun j hj => ?_, ?_, ?_, hchanged⟩
  · rw [PropertyNode.element_of_get hget', elementOf_collection hcollection',
      dif_pos (by rwa [hlength])]
    simp [Value.elements_putElement]
  · rw [PropertyNode.element_of_get hget', PropertyNode.element_of_get hget,
      elementOf_collection hcollection', elementOf_collection hcollection]
    simp [Value.elements_putElement, Ne.symm hj]
  · rw [PropertyNode.count_of_get hget', PropertyNode.count_of_get hget,
      countOf_collection hcollection', countOf_collection hcollection, hlength]
  · rw [hget', hget]
    exact congrArg Except.ok (whole.keys_putElement i new)

include hn hleaf

theorem elementAccess_of_no_collection (hcollection : ¬ whole.IsCollection) :
    r.ElementAccess row position indexes n ∧
      ∀ i v row', n.setElement row i indexes v ≠ .ok row' := by
  have hset := setElementAt_no_collection hn hleaf hget hcollection
  have hnone : ∀ i v row', n.setElement row i indexes v ≠ .ok row' := by
    intro i v row' h
    rw [setElement_eq hn hleaf, hset] at h
    cases h
  refine ⟨⟨fun i => ⟨?_, ?_⟩, fun i v e h => ?_, ?_⟩, hnone⟩
  · rintro ⟨x, hx⟩
    rw [PropertyNode.element_of_get hget, elementOf_no_collection hcollection] at hx
    cases hx
  · -- what is no collection and has a count has the count zero
    rintro ⟨c, hc, hi⟩
    rw [PropertyNode.count_of_get hget] at hc
    split at hc
    · cases hc
    · rw [countOf_no_collection hcollection _ hc] at hi
      exact absurd hi (Nat.not_lt_zero i)
  · rw [setElement_eq hn hleaf, hset] at h
    rw [hset]
    cases h
    rfl
  · intro i v row' h
    exact absurd h (hnone i v row')

variable {T : LeafType} (hT : r.leafType? position = some T) (hcollection : whole.IsCollection)

include hT hcollection

theorem elementAccess_of_collection (hcount : n.count row indexes = .ok whole.elements.length) :
    r.ElementAccess row position indexes n := by
  refine ⟨fun i => ?_, fun i v e h => ?_, fun i v row' h => ?_⟩
  · rw [PropertyNode.element_of_get hget, elementOf_collection hcollection, hcount]
    by_cases hi : i < whole.elements.length <;> simp [hi]
  all_goals
    have houtcome := elementOutcome hn hleaf hget hT hcollection i v
    rw [h] at houtcome
    generalize r.setElementAt n.path v position i indexes row = written at houtcome ⊢
  · cases houtcome <;> rfl
  · cases houtcome with
    | done _ _ _ hchanged => exact ⟨rfl, hchanged⟩

/-- If the collection with one element replaced is read as its element type reads the element, then
that is what replacing an element comes to. -/
theorem elementWrites {e : CellType} (hreread : ∀ i v, i < whole.elements.length →
      T.reread (whole.putElement i v) = ((LeafType.cell e).reread v).map (whole.putElement i)) :
    r.ElementWrites row position indexes n e whole.elements.length := by
  -- a write that succeeds, and then when one fails and with what
  refine ⟨fun i v row' h => ?_, fun i v e' => ?_⟩
  · have houtcome := elementOutcome hn hleaf hget hT hcollection i v
    rw [h] at houtcome
    generalize r.setElementAt n.path v position i indexes row = written at houtcome
    cases houtcome with
    | done hi hvalue hshown hchanged =>
      rw [hreread i v hi, map_eq_ok_iff] at hvalue
      obtain ⟨new, hnew, rfl⟩ := hvalue
      exact ⟨hi, new, hnew, elementReplaced hget hcollection hi hshown hchanged⟩
  · have houtcome := elementOutcome hn hleaf hget hT hcollection i v
    generalize n.setElement row i indexes v = result at houtcome ⊢
    generalize r.setElementAt n.path v position i indexes row = written at houtcome
    cases houtcome with
    | beyond hi => simp [hi, Nat.not_lt.mpr hi, eq_comm]
    | unreadable hi hvalue =>
      rw [hreread i v hi, map_eq_error_iff] at hvalue
      simp [hvalue, hi, Nat.not_le.mpr hi, eq_comm]
    | done hi hvalue _ _ =>
      rw [hreread i v hi, map_eq_ok_iff] at hvalue
      obtain ⟨new, hnew, -⟩ := hvalue
      simp [hnew, hi, Nat.not_le.mpr hi]

end Collection

/-- The node of a collection says that it collects. -/
theorem kind_ne_scalar {r : RecordType} {position : List Nat} {n : PropertyNode r.Row}
    (hn : r.properties.descend? position = some n) {t e : CellType}
    (hT : r.leafType? position = some (.cell t)) (he : t.element? = some e) :
    n.kind ≠ .scalar := by
  cases position with
  | nil => cases hT
  | cons number below =>
    obtain ⟨_, -, hdescribed⟩ := r.describedBy hn (List.cons_ne_nil _ _)
    rw [hdescribed.kind_eq _ hT, LeafType.shape]
    cases t with
    | sequence form t => cases form <;> exact CollectionKind.noConfusion
    | array t length => exact CollectionKind.noConfusion
    | map form shared k v => cases form <;> cases shared <;> exact CollectionKind.noConfusion
    | _ => cases he

/-- Replacing an element of a leaf of a row that was read: of a collection whose elements are
replaced one by one, or of a converted member, which shows no elements. Exactly the elements below
the count can be read. A replacement that fails leaves the row exactly as it was, and any other
changes this leaf alone. Of the leaf it changes one element, to what the type of the elements reads
from the value; all other elements, their number and all keys stay. For this the collection must
come out of a round trip as it was: it was read and not made by a converter of rows, its keys have
an order, its converters revert what they convert, and the members of its records have columns of
their own. -/
theorem setElement_outcome (r : RecordType) {naming : Naming} {raw : RawRow} {row : r.Row}
    (hrow : r.read naming raw = .ok row) {position : List Nat} {n : PropertyNode r.Row}
    (hn : r.properties.descend? position = some n) {T : LeafType}
    (hT : r.leafType? position = some T) (hlisted : ∀ t, T = .cell t → t.element?.isSome = true)
    (indexes : List Nat) {whole : Value} (hget : n.get row indexes = .ok whole) :
    r.ElementAccess row position indexes n ∧
    (∀ t e, T = .cell t → t.element? = some e →
      r.members.PlainRows → t.StaticKeys → t.Reverting → t.DistinctColumns →
        ∃ c, n.count row indexes = .ok c ∧ r.ElementWrites row position indexes n e c) ∧
    ∀ c, T = .converted c → ∀ i v row', n.setElement row i indexes v ≠ .ok row' := by
  have hleaf := PropertyNode.isLeaf_of_get hget
  have hshows := shows_of_readAt hrow hT (readAt_of_get hn hleaf hget)
  -- a cell that lists elements is taken apart; a converted leaf prints to no collection
  cases T with
  | cell t =>
    obtain ⟨e, he⟩ := Option.isSome_iff_exists.mp (hlisted t rfl)
    obtain ⟨y, rfl, hread⟩ := hshows
    have hcollection := t.isCollection_print he .pascal y
    have hcount : n.count row indexes = .ok (t.print .pascal y).elements.length := by
      rw [PropertyNode.count_of_get hget, if_neg (kind_ne_scalar hn hT he),
        countOf_collection hcollection]
    refine ⟨elementAccess_of_collection hn hleaf hget hT hcollection hcount, ?_, ?_⟩
    · rintro _ e' ⟨⟩ he' hplain hkeys hreverts hcolumns
      obtain ⟨_, _, hy⟩ := hread hplain
      refine ⟨_, hcount, elementWrites hn hleaf hget hT hcollection fun i v hi => ?_⟩
      exact t.read_putElement he' hkeys hreverts hcolumns hy hi v
    · rintro _ ⟨⟩
  | converted c =>
    obtain ⟨y, rfl⟩ := hshows
    obtain ⟨haccess, hnone⟩ :=
      elementAccess_of_no_collection hn hleaf hget (c.not_isCollection_print y)
    refine ⟨haccess, ?_, fun _ _ => hnone⟩
    rintro _ _ ⟨⟩

end RecordType

/-- A stage of two waves; the second one has two tags. -/
def Game.duskCells : RawRow :=
  [("Id", .text "dusk"),
    ("Waves", .list [.null, .record [("Tags", .list [.text "fog", .text "rain"])]])]

namespace RecordType

/-- The second tag of the second wave gets another text, and the first tag stays. -/
theorem setElement_outcome_stage : ∃ row n row',
    Game.stage.record.read .pascal Game.duskCells = .ok row ∧
      Game.stage.record.properties.descend? [1, 1] = some n ∧
      n.setElement row 1 [1] (.text "snow") = .ok row' ∧ n.element row' 0 [1] = .ok (.text "fog") ∧
      Game.stage.record.ElementReplaced [1, 1] [1] n 1 (.text "snow") row row' := by
  have hrow : Game.stage.record.read .pascal Game.duskCells = .ok _ := rfl
  have hn : Game.stage.record.properties.descend? [1, 1] = some _ := rfl
  have hT : Game.stage.record.leafType? [1, 1] = some (.cell (.list .text)) := rfl
  have hlisted : ∀ t, LeafType.cell (.list .text) = .cell t → t.element?.isSome = true := by
    rintro _ ⟨⟩
    rfl
  obtain ⟨-, hwrites, -⟩ := Game.stage.record.setElement_outcome hrow hn hT hlisted [1]
    rfl
  obtain ⟨c, -, hwrites⟩ := hwrites _ .text rfl rfl (by decide) (by decide) ⟨trivial, trivial⟩
    (by decide)
  obtain ⟨-, new, hnew, hreplaced⟩ := hwrites.replaced 1 (.text "snow") _ rfl
  cases hnew
  exact ⟨_, _, _, hrow, hn, rfl, (hreplaced.others 0 (by decide)).trans rfl, hreplaced⟩

/-! ### Keys that print alike -/

/-- A mark of which two members come to one column; its accessor is written by hand. -/
def mark : RecordType :=
  ⟨⟨"Mark", none, false, false, ["xy"]⟩,
    .ofList [dataMember "x_y" .text, dataMember "xy" .bool]⟩

/-- Amounts by marks. -/
def hoard : RecordType :=
  .plain "Hoard" [dataMember "amounts" (.map .sorted false mark.cell (.int .u32))]

/-- Amounts of two marks. -/
def hoardCells : RawRow :=
  [("Amounts", .list
    [.list [.record [("Xy", .text "1")], .int ⟨20, by decide⟩],
      .list [.record [("Xy", .text "yes")], .int ⟨30, by decide⟩]])]

/-- The two marks print alike, so that one amount is lost where the other is replaced. -/
theorem hoard_loses_key : Code.isIdentifier "x_y" = true ∧ Code.isIdentifier "xy" = true ∧
    (∃ s g, mark.decl.extract = .ok s ∧ s.generate = .ok g ∧ g.accessors = []) ∧
    (∃ s, hoard.decl.extract = .ok s) ∧
    ∃ row n row', hoard.read .pascal hoardCells = .ok row ∧
      hoard.properties.descend? [0] = some n ∧
      hoard.leafType? [0] = some (.cell (.map .sorted false mark.cell (.int .u32))) ∧
      n.setElement row 0 [] (.int ⟨50, by decide⟩) = .ok row' ∧
      n.element row' 0 [] = .ok (.int ⟨30, by decide⟩) ∧
      n.count row [] = .ok 2 ∧ n.count row' [] = .ok 1 := by
  have hn : hoard.properties.descend? [0] = some _ := rfl
  have hT : hoard.leafType? [0] = some _ := rfl
  have hkind := kind_ne_scalar hn hT rfl
  refine ⟨by decide, by decide, ⟨mark.decl.schema, _, ?_, rfl, by decide +kernel⟩,
    ⟨_, RecordDecl.extract_of_isNone (by decide)⟩, _, _, _, rfl, hn, hT, rfl, rfl, ?_, ?_⟩
  · exact RecordDecl.extract_of_isNone (by decide)
  · exact (PropertyNode.count_of_get rfl).trans ((if_neg hkind).trans rfl)
  · exact (PropertyNode.count_of_get rfl).trans ((if_neg hkind).trans rfl)

end RecordType

end TypedSheets
