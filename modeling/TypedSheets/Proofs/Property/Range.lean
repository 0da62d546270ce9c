import TypedSheets.Proofs.Property.Paths
import TypedSheets.Proofs.Property.Writing

/-!
# Indexes out of range

On the way to a place in a row each index chooses an element of a list. The closures of a node are
built from the inside out, and each level puts its own path into the errors that it passes on. What
a caller sees in the end is told here without them: the error names the full path of the node, the
first index that is beyond its list, and the length of this list. If there is no such index, reading
and counting succeed, and writing fails only where the value does not convert.

## Main definitions

* `Members.lengthAt?`, `RecordType.lengthOnWay?` — the lengths of the lists on the way to a place
* `IndexWithin`, `IndexBeyond`, `FirstBeyond` — of an index and the list that it chooses from
* `RangeOutcome` — a result that looks at all lists on the way

## Main results

* `Members.readAt_range`, `Members.count_range` — reading and counting look at all lists on the way
* `RecordType.access_of_node` — reading, writing and counting through any node
-/

namespace TypedSheets

open PropertyNode (descend? descendIn?)

/-! ### Lists on the way -/

mutual

/-- The length of the list that is the vertical member at a place. -/
def MemberType.lengthAt? : (t : MemberType) → (position indexes : List Nat) → t.El → Option Nat
  | .rows form _ _ _, [], [] => fun xs => some (form.items xs).length
  | .rows form _ ms _, number :: position, i :: indexes => fun xs =>
    (form.items xs)[i]?.bind (ms.lengthAt? number position indexes)
  | _, _, _ => fun _ => none

/-- The length of the list at a place of the data member with that number. -/
def Members.lengthAt? : (ms : Members) → (number : Nat) → (position indexes : List Nat) → ms.El →
    Option Nat
  | .nil, _, _, _ => fun _ => none
  | .cons _ t rest, number, position, indexes => fun x =>
    t.pick number (t.lengthAt? position indexes x.1) fun later =>
      rest.lengthAt? later position indexes x.2

end

theorem MemberType.lengthAt?_rows {form : RowsForm} {head : RecordHead} {ms : Members}
    {xs : form.Holder ms.El} {i : Nat} {x : ms.El} (hx : (form.items xs)[i]? = some x)
    (number : Nat) (position indexes : List Nat) :
    (MemberType.rows form head ms via).lengthAt? (number :: position) (i :: indexes) xs =
      ms.lengthAt? number position indexes x := by
  change (form.items xs)[i]?.bind (ms.lengthAt? number position indexes) = _
  rw [hx, Option.bind_some]

theorem Members.lengthAt?_cons (info : MemberInfo) (t : MemberType) (rest : Members) (number : Nat)
    (position indexes : List Nat) (x : (Members.cons info t rest).El) :
    (Members.cons info t rest).lengthAt? number position indexes x =
      t.pick number (t.lengthAt? position indexes x.1) fun later =>
        rest.lengthAt? later position indexes x.2 := rfl

/-- The length of the list at a place of a row. -/
def RecordType.lengthAt? (r : RecordType) (position indexes : List Nat) (row : r.Row) :
    Option Nat :=
  match position with
  | [] => none
  | number :: below => r.members.lengthAt? number below indexes row

/-- The length of the list that the first `k` indexes lead to on the way to a position. -/
def RecordType.lengthOnWay? (r : RecordType) (row : r.Row) (position indexes : List Nat) (k : Nat) :
    Option Nat :=
  r.lengthAt? (position.take (k + 1)) (indexes.take k) row

section Indexes

variable {length? : Nat → Option Nat} {indexes : List Nat} {i j k len len' : Nat}

/-- The index number `k` chooses an element of the list that those before it lead to. -/
def IndexWithin (length? : Nat → Option Nat) (indexes : List Nat) (k : Nat) : Prop :=
  ∃ i len, indexes[k]? = some i ∧ length? k = some len ∧ i < len

/-- The index number `k` is `i`, and the list that those before it lead to has only `len`
elements. -/
def IndexBeyond (length? : Nat → Option Nat) (indexes : List Nat) (k i len : Nat) : Prop :=
  indexes[k]? = some i ∧ length? k = some len ∧ len ≤ i

/-- Of some indexes `i` is the first one beyond its list, which has `len` elements. -/
def FirstBeyond (length? : Nat → Option Nat) (indexes : List Nat) (i len : Nat) : Prop :=
  ∃ k, IndexBeyond length? indexes k i len ∧ ∀ j < k, IndexWithin length? indexes j

/-- Every index chooses an element. -/
def AllWithin (length? : Nat → Option Nat) (indexes : List Nat) : Prop :=
  ∀ k < indexes.length, IndexWithin length? indexes k

theorem IndexBeyond.not_within (h : IndexBeyond length? indexes k i len) :
    ¬ IndexWithin length? indexes k := by
  obtain ⟨hi, hlen, hle⟩ := h
  rintro ⟨i', len', hi', hlen', hlt⟩
  cases hi.symm.trans hi'
  cases hlen.symm.trans hlen'
  omega

theorem IndexBeyond.lt_length (h : IndexBeyond length? indexes k i len) : k < indexes.length :=
  (List.getElem?_eq_some_iff.mp h.1).1

theorem FirstBeyond.not_allWithin (h : FirstBeyond length? indexes i len) :
    ¬ AllWithin length? indexes := by
  obtain ⟨k, hk, -⟩ := h
  exact fun hall => hk.not_within (hall k hk.lt_length)

/-- There is one first index beyond its list at most. -/
theorem FirstBeyond.unique (h : FirstBeyond length? indexes i len)
    (h' : FirstBeyond length? indexes j len') : i = j ∧ len = len' := by
  obtain ⟨k, hk, hbefore⟩ := h
  obtain ⟨k', hk', hbefore'⟩ := h'
  obtain hlt | rfl | hlt := Nat.lt_trichotomy k k'
  · exact absurd (hbefore' k hlt) hk.not_within
  · exact ⟨Option.some.inj (hk.1.symm.trans hk'.1), Option.some.inj (hk.2.1.symm.trans hk'.2.1)⟩
  · exact absurd (hbefore k' hlt) hk'.not_within

/-- The index in front may be the first one that is beyond its list. -/
theorem FirstBeyond.head (hlen : length? 0 = some len) (hle : len ≤ i) :
    FirstBeyond length? (i :: indexes) i len :=
  ⟨0, ⟨rfl, hlen, hle⟩, fun j hj => absurd hj (Nat.not_lt_zero j)⟩

/-- Else it is one of those behind. -/
theorem FirstBeyond.tail (hlen : length? 0 = some len) (hlt : i < len)
    (h : FirstBeyond (fun k => length? (k + 1)) indexes j len') :
    FirstBeyond length? (i :: indexes) j len' := by
  obtain ⟨k, hk, hbefore⟩ := h
  refine ⟨k + 1, hk, fun m hm => ?_⟩
  cases m with
  | zero => exact ⟨i, len, rfl, hlen, hlt⟩
  | succ m => exact hbefore m (Nat.lt_of_succ_lt_succ hm)

theorem AllWithin.cons (hlen : length? 0 = some len) (hlt : i < len)
    (h : AllWithin (fun k => length? (k + 1)) indexes) : AllWithin length? (i :: indexes) := by
  intro k hk
  cases k with
  | zero => exact ⟨i, len, rfl, hlen, hlt⟩
  | succ k => exact h k (Nat.lt_of_succ_lt_succ hk)

end Indexes

/-! ### Results that look at all lists -/

/-- A result that is an error for the first index beyond its list, and good if there is none. -/
inductive RangeOutcome {β : Type} (path : String) (length? : Nat → Option Nat)
    (indexes : List Nat) (good : β → Prop) : Except AccessError β → Prop where
  | beyond {i len : Nat} (h : FirstBeyond length? indexes i len) :
    RangeOutcome path length? indexes good (.error (.outOfRange path i len))
  | within {b : β} (h : AllWithin length? indexes) (hgood : good b) :
    RangeOutcome path length? indexes good (.ok b)

/-- A result is an error of range for the first index that is beyond its list, and there is one
exactly if there is such an index. -/
structure RangeChecked {β : Type} (path : String) (length? : Nat → Option Nat)
    (indexes : List Nat) (result : Except AccessError β) : Prop where
  outOfRange_iff : ∀ p i len, result = .error (.outOfRange p i len) ↔
    p = path ∧ FirstBeyond length? indexes i len
  exists_iff : (∃ p i len, result = .error (.outOfRange p i len)) ↔
    ∃ k i len, IndexBeyond length? indexes k i len

namespace RangeOutcome

variable {β : Type} {path : String} {length? : Nat → Option Nat} {indexes : List Nat}
  {good : β → Prop} {result : Except AccessError β}

/-- The same result with another path in its errors. -/
theorem atPath (h : RangeOutcome path length? indexes good result) (other : String) :
    RangeOutcome other length? indexes good (result.mapError (AccessError.withPath other)) := by
  cases h with
  | beyond h => exact .beyond h
  | within h hgood => exact .within h hgood

/-- The result of a step into the first list and what is done in the element there. -/
theorem cons {i len : Nat} (hlen : length? 0 = some len) (hlt : i < len)
    (h : RangeOutcome path (fun k => length? (k + 1)) indexes good result) :
    RangeOutcome path length? (i :: indexes) good result := by
  cases h with
  | beyond h => exact .beyond (h.tail hlen hlt)
  | within h hgood => exact .within (h.cons hlen hlt) hgood

/-- A result of range fails where some index is beyond its list. -/
theorem checked (h : RangeOutcome path length? indexes good result) :
    RangeChecked path length? indexes result where
  -- either an index is the first beyond its range, or all are within: each rules out the other
  outOfRange_iff p i len := by
    cases h with
    | beyond h =>
      constructor
      · rintro ⟨⟩
        exact ⟨rfl, h⟩
      · rintro ⟨rfl, h'⟩
        obtain ⟨rfl, rfl⟩ := h.unique h'
        rfl
    | within h =>
      constructor
      · rintro ⟨⟩
      · rintro ⟨-, h'⟩
        exact absurd h h'.not_allWithin
  exists_iff := by
    cases h with
    | beyond h =>
      obtain ⟨k, hk, -⟩ := id h
      exact iff_of_true ⟨_, _, _, rfl⟩ ⟨k, _, _, hk⟩
    | within h =>
      refine iff_of_false ?_ ?_
      · rintro ⟨_, _, _, ⟨⟩⟩
      · rintro ⟨k, i, len, hk⟩
        exact hk.not_within (h k hk.lt_length)

/-- If no index is beyond its list, the result is good. -/
theorem exists_of_not_beyond (h : RangeOutcome path length? indexes good result)
    (hnone : ∀ k i len, ¬ IndexBeyond length? indexes k i len) : ∃ b, result = .ok b ∧ good b := by
  cases h with
  | beyond h =>
    obtain ⟨k, hk, -⟩ := h
    exact absurd hk (hnone k _ _)
  | within h hgood => exact ⟨_, rfl, hgood⟩

end RangeOutcome
/-! ### Reading and counting -/

section Rows

variable {β : Type} {form : RowsForm} {head : RecordHead} {ms : Members}
  {xs : form.Holder ms.El} {x : ms.El} {number i : Nat} {position indexes : List Nat}
  {path : String} {good : β → Prop}

/-- Without an element at its index, a vertical member ends the way. -/
theorem RangeOutcome.missing (hx : (form.items xs)[i]? = none) :
    RangeOutcome path
      (fun k => (MemberType.rows form head ms via).lengthAt? ((number :: position).take k)
        ((i :: indexes).take k) xs) (i :: indexes) good
      (.error (.outOfRange path i (form.items xs).length)) :=
  .beyond (.head rfl (List.getElem?_eq_none_iff.mp hx))

/-- With an element at its index, it is in this element that the way goes on. -/
theorem RangeOutcome.rows {result : Except AccessError β} (hx : (form.items xs)[i]? = some x)
    (h : RangeOutcome path
      (fun k => ms.lengthAt? number (position.take k) (indexes.take k) x) indexes good result) :
    RangeOutcome path
      (fun k => (MemberType.rows form head ms via).lengthAt? ((number :: position).take k)
        ((i :: indexes).take k) xs) (i :: indexes) good result := by
  refine .cons rfl (List.getElem?_eq_some_iff.mp hx).1 ?_
  simpa only [List.take_succ_cons, MemberType.lengthAt?_rows hx] using h

end Rows

mutual

/-- Reading a leaf looks at all lists on the way. -/
theorem MemberType.readAt_range : (t : MemberType) → (position indexes : List Nat) →
    (t.leafType? position).isSome = true → indexes.length = position.length → (x : t.El) →
    RangeOutcome "" (fun k => t.lengthAt? (position.take k) (indexes.take k) x) indexes
      (fun _ => True) (t.readAt position indexes x)
  | .cell _, [], [], _, _, _ => .within (fun _ hk => absurd hk (Nat.not_lt_zero _)) trivial
  | .converted _, [], [], _, _, _ => .within (fun _ hk => absurd hk (Nat.not_lt_zero _)) trivial
  | .rows form head ms _, number :: position, i :: indexes, hT, hlength, xs => by
    cases hx : (form.items xs)[i]? with
    | none =>
      simp only [MemberType.readAt, hx]
      exact .missing hx
    | some x =>
      have helement := ms.readAt_range number position indexes hT (Nat.succ.inj hlength) x
      simp only [MemberType.readAt, hx]
      exact .rows hx helement
  | .cell _, [], _ :: _, _, hlength, _ => by cases hlength
  | .converted _, [], _ :: _, _, hlength, _ => by cases hlength
  | .rows _ _ _ _, _ :: _, [], _, hlength, _ => by cases hlength
  | .rows _ _ _ _, [], _, hT, _, _ => by cases hT
  | .cell _, _ :: _, _, hT, _, _ => by cases hT
  | .converted _, _ :: _, _, hT, _, _ => by cases hT
  | .ignored _, _, _, hT, _, _ => by cases hT

theorem Members.readAt_range : (ms : Members) → (number : Nat) → (position indexes : List Nat) →
    (ms.leafType? number position).isSome = true → indexes.length = position.length → (x : ms.El) →
    RangeOutcome "" (fun k => ms.lengthAt? number (position.take k) (indexes.take k) x) indexes
      (fun _ => True) (ms.readAt number position indexes x)
  | .nil, _, _, _, hT, _, _ => by cases hT
  | .cons info t rest, number, position, indexes, hT, hlength, x => by
    rw [Members.leafType?] at hT
    obtain ⟨-, -, hpick⟩ | ⟨later, -, hpick⟩ := t.pick_cases number
    · rw [hpick] at hT
      simp only [Members.readAt_cons, Members.lengthAt?_cons, hpick]
      exact t.readAt_range position indexes hT hlength x.1
    · rw [hpick] at hT
      simp only [Members.readAt_cons, Members.lengthAt?_cons, hpick]
      exact rest.readAt_range later position indexes hT hlength x.2

end

namespace PropertyNode

variable {ρ α : Type}

@[simp] theorem isVertical_lift (e : Elements ρ α) (parent : String) (m : PropertyNode α) :
    (m.lift e parent).isVertical = m.isVertical := by
  obtain ⟨path, d, depth, access, children⟩ := m
  cases access <;> rfl

/-- The list of a node below an element is counted in the element, if there is one. -/
theorem count_lift_eq (e : Elements ρ α) (parent : String) {m : PropertyNode α}
    (hvertical : m.isVertical = true) (row : ρ) (i : Nat) {indexes : List Nat}
    (hdepth : indexes.length = m.depth) : (m.lift e parent).count row (i :: indexes) =
      e.atIndex (parent ++ "." ++ m.path) row (i :: indexes) fun _ x rest => m.count x rest := by
  have hlift : (i :: indexes).length = (m.lift e parent).depth := by simp [hdepth]
  rw [PropertyNode.count, checked_of_eq hlift, access_lift]
  rw [isVertical] at hvertical
  cases haccess : m.access with
  | vertical count =>
    simp [Access.lift, Elements.atIndex, PropertyNode.count, checked_of_eq hdepth, haccess]
  | _ => simp [haccess] at hvertical

end PropertyNode

mutual

/-- Counting the list of a vertical node looks at all lists on the way, and gives the length of its
own. -/
theorem MemberType.count_range {ρ : Type} (d : RecordDecl) (info : MemberInfo) : (t : MemberType) →
    (len : Lens ρ t.El) → ∀ position m,
    descendIn? (t.nodes d info len) (0 :: position) = some m → m.isVertical = true →
    ∀ (row : ρ) indexes, indexes.length = position.length →
      RangeOutcome m.path (fun k => t.lengthAt? (position.take k) (indexes.take k) (len.get row))
        indexes (fun n => t.lengthAt? position indexes (len.get row) = some n)
        (m.count row indexes)
  | .rows form head ms _, len, [], m, hm, _, row, indexes, hlength => by
    cases hm
    obtain rfl := List.length_eq_zero_iff.mp hlength
    exact .within (fun _ hk => absurd hk (Nat.not_lt_zero _)) rfl
  | .rows form head ms _, len, number :: position, m, hm, hvertical, row, indexes, hlength => by
    change (PropertyNode.vertical _ _ _).descend? (number :: position) = some m at hm
    rw [PropertyNode.descend?_vertical] at hm
    obtain ⟨m, hbelow, rfl⟩ := Option.map_eq_some_iff.mp hm
    rw [PropertyNode.isVertical_lift] at hvertical
    obtain ⟨i, indexes, rfl⟩ := List.exists_cons_of_length_eq_add_one hlength
    have hlength : indexes.length = position.length := Nat.succ.inj hlength
    -- a node that rows lie above takes one index more than the node below
    have hdepth : indexes.length = m.depth := by
      obtain ⟨names, hnames, hnamed⟩ :=
        ms.describedBy (head.decl ms) Lens.whole number position m hbelow
      have hdepth := hnamed.depth_eq
      rw [ms.length_of_namesAt? hnames] at hdepth
      omega
    rw [PropertyNode.count_lift_eq _ _ hvertical row i hdepth, PropertyNode.path_lift]
    cases hx : (form.items (len.get row))[i]? with
    | none =>
      have hmissing : (Lens.elements form len).items row = form.items (len.get row) := rfl
      rw [Elements.atIndex, hmissing, hx]
      exact .missing hx
    | some x =>
      have hcount := ms.count_range (head.decl ms) Lens.whole number position m hbelow hvertical x
        indexes hlength
      rw [PropertyNode.atIndex_cons (Lens.elements form len) hx]
      simp only [MemberType.lengthAt?_rows hx]
      exact .rows hx (hcount.atPath _)
  -- a leaf has no rows, and below it there is no node
  | .cell _, _, [], _, hm, hvertical, _, _, _ => by
    cases hm
    cases hvertical
  | .converted _, _, [], _, hm, hvertical, _, _, _ => by
    cases hm
    cases hvertical
  | .cell _, _, _ :: _, _, hm, _, _, _, _ => by cases hm
  | .converted _, _, _ :: _, _, hm, _, _, _, _ => by cases hm
  | .ignored _, _, _, _, hm, _, _, _, _ => by cases hm

theorem Members.count_range {ρ : Type} (d : RecordDecl) : (ms : Members) → (len : Lens ρ ms.El) →
    ∀ number position m, descendIn? (ms.nodes d len) (number :: position) = some m →
    m.isVertical = true → ∀ (row : ρ) indexes, indexes.length = position.length →
      RangeOutcome m.path
        (fun k => ms.lengthAt? number (position.take k) (indexes.take k) (len.get row))
        indexes (fun n => ms.lengthAt? number position indexes (len.get row) = some n)
        (m.count row indexes)
  | .nil, _, _, _, _, hm, _, _, _, _ => by cases hm
  | .cons info t rest, len, number, position, m, hm, hvertical, row, indexes, hlength => by
    rw [Members.descendIn?_nodes] at hm
    obtain ⟨-, -, hpick⟩ | ⟨later, -, hpick⟩ := t.pick_cases number
    · rw [hpick] at hm
      simp only [Members.lengthAt?_cons, hpick]
      exact t.count_range d info len.first position m hm hvertical row indexes hlength
    · rw [hpick] at hm
      simp only [Members.lengthAt?_cons, hpick]
      exact rest.count_range d len.second later position m hm hvertical row indexes hlength

end

/-! ### Access to a row -/

namespace RecordType

variable {r : RecordType} {row : r.Row} {position indexes : List Nat} {n : PropertyNode r.Row}

/-- What reading and writing a leaf comes to, with an index for each list on the way. -/
structure LeafAccess (r : RecordType) (row : r.Row) (position indexes : List Nat)
    (n : PropertyNode r.Row) : Prop where
  get : RangeChecked n.path (r.lengthOnWay? row position indexes) indexes (n.get row indexes)
  set : ∀ v, RangeChecked n.path (r.lengthOnWay? row position indexes) indexes (n.set row indexes v)
  get_ok : (∀ k i len, ¬ IndexBeyond (r.lengthOnWay? row position indexes) indexes k i len) →
    ∃ v, n.get row indexes = .ok v
  set_error_iff : (∀ k i len, ¬ IndexBeyond (r.lengthOnWay? row position indexes) indexes k i len) →
    ∃ T, r.leafType? position = some T ∧ ∀ v e, n.set row indexes v = .error e ↔
      ∃ cause, T.reread v = .error cause ∧ e = .cell n.path cause

/-- What counting a list comes to, with an index for each list on the way. -/
structure ListAccess (r : RecordType) (row : r.Row) (position indexes : List Nat)
    (n : PropertyNode r.Row) : Prop where
  count : RangeChecked n.path (r.lengthOnWay? row position indexes) indexes (n.count row indexes)
  count_ok : (∀ k i len, ¬ IndexBeyond (r.lengthOnWay? row position indexes) indexes k i len) →
    ∃ len, n.count row indexes = .ok len ∧ r.lengthAt? position indexes row = some len

/-- A node below the root takes an index for each list on the way to it. -/
theorem depth_of_descend? (hn : r.properties.descend? position = some n) :
    n.depth = position.length - 1 := by
  cases position with
  | nil =>
    cases hn
    rfl
  | cons number below =>
    obtain ⟨names, hnames, hnamed⟩ := r.describedBy hn (List.cons_ne_nil _ _)
    have hdepth := hnamed.depth_eq
    rw [r.members.length_of_namesAt? hnames] at hdepth
    rw [List.length_cons]
    omega

/-- Reading a leaf looks at all lists on the way. -/
theorem get_range (hn : r.properties.descend? position = some n) (hleaf : n.isLeaf = true)
    (hlength : indexes.length = n.depth) :
    RangeOutcome n.path (r.lengthOnWay? row position indexes) indexes (fun _ => True)
      (n.get row indexes) := by
  obtain ⟨⟨T, hT⟩, hoperates⟩ := r.operates hn hleaf
  rw [depth_of_descend? hn] at hlength
  rw [(hoperates row indexes).1]
  cases position with
  | nil => cases hT
  | cons number below =>
    have hlength : indexes.length = below.length := hlength
    rw [readAt, atPlace, if_pos hlength]
    exact (r.members.readAt_range number below indexes (Option.isSome_of_eq_some hT) hlength
      row).atPath n.path

theorem leafAccess (hn : r.properties.descend? position = some n) (hleaf : n.isLeaf = true)
    (hlength : indexes.length = n.depth) : r.LeafAccess row position indexes n := by
  have hget : RangeOutcome n.path (r.lengthOnWay? row position indexes) indexes (fun _ => True)
      (n.get row indexes) := get_range hn hleaf hlength
  obtain ⟨⟨T, hT⟩, hoperates⟩ := r.operates hn hleaf
  -- a write fails as a read does, or because of the value
  have hset : ∀ v, (∃ e, n.get row indexes = .error e ∧ n.set row indexes v = .error e) ∨
      (∃ old cause, n.get row indexes = .ok old ∧ T.reread v = .error cause ∧
        n.set row indexes v = .error (.cell n.path cause)) ∨
      ∃ old new row', n.get row indexes = .ok old ∧ T.reread v = .ok new ∧
        n.set row indexes v = .ok row' := by
    intro v
    obtain ⟨hread, hwrite⟩ := hoperates row indexes
    rw [hread, hwrite v]
    have houtcome := r.writeOutcome n.path hT v indexes row
    generalize r.writeAt n.path v position indexes row = written at houtcome
    cases houtcome with
    | unreachable hplace => exact .inl ⟨_, hplace, rfl⟩
    | unreadable hplace hvalue => exact .inr (.inl ⟨_, _, hplace, hvalue, rfl⟩)
    | done hplace hvalue => exact .inr (.inr ⟨_, _, _, hplace, hvalue, rfl⟩)
  refine ⟨hget.checked, fun v => ?_, fun hnone => ?_, fun hnone => ⟨T, hT, fun v e => ?_⟩⟩
  · have hsame : ∀ p i len, n.set row indexes v = .error (.outOfRange p i len) ↔
        n.get row indexes = .error (.outOfRange p i len) := by
      intro p i len
      obtain ⟨e, hread, hwrite⟩ | ⟨_, _, hread, -, hwrite⟩ | ⟨_, _, _, hread, -, hwrite⟩ := hset v
      · rw [hread, hwrite, Except.error.injEq, Except.error.injEq]
      · simp [hread, hwrite]
      · simp [hread, hwrite]
    have hchecked := hget.checked
    exact ⟨by simpa only [hsame] using hchecked.outOfRange_iff,
      by simpa only [hsame] using hchecked.exists_iff⟩
  · obtain ⟨v, hv, -⟩ := hget.exists_of_not_beyond hnone
    exact ⟨v, hv⟩
  · obtain ⟨old, hold, -⟩ := hget.exists_of_not_beyond hnone
    obtain ⟨_, hread, -⟩ | ⟨_, _, -, hvalue, hwrite⟩ | ⟨_, _, _, -, hvalue, hwrite⟩ := hset v
    · cases hold.symm.trans hread
    · rw [hwrite, hvalue, Except.error.injEq]
      simp [eq_comm]
    · simp [hwrite, hvalue]

theorem listAccess (hn : r.properties.descend? position = some n) (hvertical : n.isVertical = true)
    (hlength : indexes.length = n.depth) : r.ListAccess row position indexes n := by
  rw [depth_of_descend? hn] at hlength
  cases position with
  | nil =>
    -- the root is no list
    cases hn
    cases hvertical
  | cons number below =>
    have hcount := r.members.count_range r.decl Lens.whole number below n hn hvertical row indexes
      hlength
    exact ⟨hcount.checked, hcount.exists_of_not_beyond⟩

/-- Access to a row through any node and with any indexes. The path of the node is the full one. If
the number of indexes is wrong, reading, writing and counting all fail and say so. If it is right,
reading and writing a leaf and counting a list fail with an error of range exactly if some index is
beyond the list that the indexes before it lead to; the error has the path of the node, the first
such index and the length of its list. Without such an index a leaf is read and a list is counted,
and writing fails only where the leaf does not read the value. -/
theorem access_of_node (r : RecordType) (row : r.Row) {position : List Nat}
    {n : PropertyNode r.Row} (hn : r.properties.descend? position = some n) (indexes : List Nat) :
    (position ≠ [] → ∃ names, r.namesAt? position = some names ∧
      n.path = ".".intercalate names ∧ position.length = n.depth + 1) ∧
    (indexes.length ≠ n.depth →
      n.get row indexes = .error (.indexDepth n.path n.depth indexes.length) ∧
      (∀ v, n.set row indexes v = .error (.indexDepth n.path n.depth indexes.length)) ∧
      n.count row indexes = .error (.indexDepth n.path n.depth indexes.length)) ∧
    (indexes.length = n.depth →
      (n.isLeaf = true → r.LeafAccess row position indexes n) ∧
      (n.isVertical = true → r.ListAccess row position indexes n)) := by
  refine ⟨fun hbelow => ?_, fun hlength => ?_, fun hlength => ?_⟩
  · obtain ⟨names, hnames, hnamed⟩ := r.describedBy hn hbelow
    refine ⟨names, hnames, hnamed.path_eq, ?_⟩
    have hpositive := List.length_pos_iff.mpr hbelow
    have hdepth := depth_of_descend? hn
    omega
  · exact ⟨PropertyNode.checked_of_ne hlength, fun v => PropertyNode.checked_of_ne hlength,
      PropertyNode.checked_of_ne hlength⟩
  · exact ⟨fun hleaf => leafAccess hn hleaf hlength, fun hvertical =>
      listAccess hn hvertical hlength⟩

/-- The second wave has one group of heroes, so there is no group number 5 to read or to write. -/
theorem access_of_node_stage : ∃ n, Game.stage.record.properties.descend? [1, 0, 1] = some n ∧
    n.path = "Waves.Spawns.Count" ∧ n.get Game.keep [1, 5] = .error (.outOfRange n.path 5 1) ∧
    ∀ v, n.set Game.keep [1, 5] v = .error (.outOfRange n.path 5 1) := by
  have hn : Game.stage.record.properties.descend? [1, 0, 1] = some _ := rfl
  obtain ⟨-, -, haccess⟩ := Game.stage.record.access_of_node Game.keep hn [1, 5]
  obtain ⟨hleaf, -⟩ := haccess rfl
  have hfirst : FirstBeyond
      (Game.stage.record.lengthOnWay? Game.keep [1, 0, 1] [1, 5]) [1, 5] 5 1 := by
    refine ⟨1, ⟨rfl, rfl, by decide⟩, fun j hj => ?_⟩
    obtain rfl : j = 0 := by omega
    exact ⟨1, 2, rfl, rfl, by decide⟩
  refine ⟨_, hn, by decide +kernel, ?_, fun v => ?_⟩
  · exact ((hleaf rfl).get.outOfRange_iff _ _ _).mpr ⟨rfl, hfirst⟩
  · exact (((hleaf rfl).set v).outOfRange_iff _ _ _).mpr ⟨rfl, hfirst⟩

end RecordType

end TypedSheets
