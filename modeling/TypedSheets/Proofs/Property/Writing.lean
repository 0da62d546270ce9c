import TypedSheets.Game.Stages
import TypedSheets.Proofs.Property.Place

/-!
# Writing one leaf

A write goes down through one list for each index and ends in a conversion. Here it is shown that it
changes the leaf that it names and nothing else: not another element, not another member, and
nothing at all if it fails on the way or at the end.

## Main definitions

* `WriteOutcome` — the three ends that a write can come to
* `RecordType.AgreeExcept` — rows of the same shape that may differ in some leaves only

## Main results

* `Members.writeOutcome` — every write comes to one of its ends
* `Members.agreeExcept_writeAt` — it changes no other leaf, and no member that has no column
* `RecordType.set_changes_one_leaf` — both for the leaves of a property tree
-/

namespace TypedSheets

open PropertyNode (descend?)

/-! ### How a write ends -/

section Outcome

variable {α β : Type}

/-- What a write at a place comes to, where the leaf at the place is read by `read`. -/
inductive WriteOutcome (path : String) (T : LeafType) (v : Value)
    (read : α → Except AccessError Value) (x : α) : α × Except AccessError Unit → Prop where
  /-- There is no such place, and reading says the same. -/
  | unreachable {e : AccessError} (hplace : read x = .error e) :
    WriteOutcome path T v read x (x, .error e)
  /-- The leaf does not read the value. -/
  | unreadable {old : Value} {cause : CellError} (hplace : read x = .ok old)
    (hvalue : T.reread v = .error cause) :
    WriteOutcome path T v read x (x, .error (.cell path cause))
  /-- The leaf shows what it has read. -/
  | done {old new : Value} {y : α} (hplace : read x = .ok old) (hvalue : T.reread v = .ok new)
    (hnew : read y = .ok new) : WriteOutcome path T v read x (y, .ok ())

namespace WriteOutcome

variable {path : String} {T : LeafType} {v : Value} {x : α}

/-- A write in a part of a whole, as a write in the whole. -/
theorem within {read : α → Except AccessError Value} {written : α × Except AccessError Unit}
    (h : WriteOutcome path T v read x written) (put : α → β) {whole : β}
    {readWhole : β → Except AccessError Value} (hput : put x = whole)
    (hread : ∀ y, readWhole (put y) = read y) :
    WriteOutcome path T v readWhole whole (put written.1, written.2) := by
  subst hput
  cases h with
  | unreachable hplace => exact .unreachable ((hread x).trans hplace)
  | unreadable hplace hvalue => exact .unreadable ((hread x).trans hplace) hvalue
  | done hplace hvalue hnew =>
    exact .done ((hread x).trans hplace) hvalue ((hread _).trans hnew)

/-- The same write with another path in its errors. -/
theorem atPath {read : α → Except AccessError Value} {written : α × Except AccessError Unit}
    (h : WriteOutcome path T v read x written) (other : String) :
    WriteOutcome other T v (fun y => (read y).mapError (AccessError.withPath other)) x
      (written.1, written.2.mapError (AccessError.withPath other)) := by
  cases h with
  | unreachable hplace => exact .unreachable (by rw [hplace]; rfl)
  | unreadable hplace hvalue => exact .unreadable (by rw [hplace]; rfl) hvalue
  | done hplace hvalue hnew => exact .done (by rw [hplace]; rfl) hvalue (by rw [hnew]; rfl)

theorem assigned {read : Value → Except CellError α} {print : α → Value}
    (hT : T.reread v = (read v).map print) :
    WriteOutcome "" T v (fun y => .ok (print y)) x (assigned x (read v)) := by
  cases hv : read v with
  | ok y => exact .done rfl (by rw [hT, hv]; rfl) rfl
  | error cause => exact .unreadable rfl (by rw [hT, hv]; rfl)

end WriteOutcome

end Outcome

section Rows

variable {α : Type} {form : RowsForm} {xs : form.Holder α} {i : Nat} {x : α}

/-- An element that is put back where it stands changes nothing. -/
theorem RowsForm.set_getElem? (hx : (form.items xs)[i]? = some x) : form.set xs i x = xs :=
  (Lens.elements_lawful Lens.whole_lawful).set_get xs i x hx

/-- What is put in the place of an element stands there. -/
theorem RowsForm.getElem?_items_set (hx : (form.items xs)[i]? = some x) (y : α) :
    (form.items (form.set xs i y))[i]? = some y := by
  rw [RowsForm.items_set, List.getElem?_set_self (List.getElem?_eq_some_iff.mp hx).1]

theorem RowsForm.getElem?_items_set_ne {j : Nat} (hj : i ≠ j) (y : α) :
    (form.items (form.set xs i y))[j]? = (form.items xs)[j]? := by
  rw [RowsForm.items_set, List.getElem?_set_ne hj]

theorem RowsForm.length_items_set (y : α) :
    (form.items (form.set xs i y)).length = (form.items xs).length := by
  rw [RowsForm.items_set, List.length_set]

end Rows

mutual

/-- A write at a place of a member comes to one of its ends. -/
theorem MemberType.writeOutcome (v : Value) (T : LeafType) : (t : MemberType) →
    (position indexes : List Nat) → t.leafType? position = some T → (x : t.El) →
    WriteOutcome "" T v (t.readAt position indexes) x (t.writeAt v position indexes x)
  | .cell t, [], [], hT, x => by
    cases hT
    exact .assigned rfl
  | .converted c, [], [], hT, x => by
    cases hT
    exact .assigned rfl
  | .rows form head ms _, number :: position, i :: indexes, hT, xs => by
    cases hx : (form.items xs)[i]? with
    | none =>
      simp only [MemberType.writeAt, hx]
      exact .unreachable (by simp only [MemberType.readAt, hx])
    | some x =>
      have helement := ms.writeOutcome v T number position indexes hT x
      simp only [MemberType.writeAt, hx]
      refine helement.within (form.set xs i) (RowsForm.set_getElem? hx) fun y => ?_
      simp only [MemberType.readAt, RowsForm.getElem?_items_set hx]
  -- too few or too many indexes reach no leaf
  | .rows _ _ _ _, _ :: _, [], _, _ => .unreachable rfl
  | .cell _, [], _ :: _, _, _ => .unreachable rfl
  | .converted _, [], _ :: _, _, _ => .unreachable rfl
  | .rows _ _ _ _, [], _, hT, _ => by cases hT
  | .cell _, _ :: _, _, hT, _ => by cases hT
  | .converted _, _ :: _, _, hT, _ => by cases hT
  | .ignored _, _, _, hT, _ => by cases hT

/-- A write at a place of a data member comes to one of its ends. -/
theorem Members.writeOutcome (v : Value) (T : LeafType) : (ms : Members) →
    (number : Nat) → (position indexes : List Nat) → ms.leafType? number position = some T →
    (x : ms.El) →
    WriteOutcome "" T v (ms.readAt number position indexes) x
      (ms.writeAt v number position indexes x)
  | .nil, _, _, _, hT, _ => by cases hT
  | .cons info t rest, number, position, indexes, hT, x => by
    rw [Members.leafType?] at hT
    obtain ⟨-, -, hpick⟩ | ⟨later, -, hpick⟩ := t.pick_cases number
    · rw [hpick] at hT
      rw [Members.writeAt_cons, hpick]
      exact (t.writeOutcome v T position indexes hT x.1).within (fun y => (y, x.2)) rfl
        fun _ => hpick _ _
    · rw [hpick] at hT
      rw [Members.writeAt_cons, hpick]
      exact (rest.writeOutcome v T later position indexes hT x.2).within (fun y => (x.1, y)) rfl
        fun _ => hpick _ _

end

/-! ### What a write leaves as it was -/

/-- Some places: a position and an index for each list on the way. -/
abbrev Places := List Nat → List Nat → Prop

mutual

/-- The values of a member have the same shape and differ in leaves at the places only. -/
def MemberType.AgreeExcept : (t : MemberType) → (S : Places) → t.El → t.El → Prop
  | .cell _, S => fun x y => S [] [] ∨ x = y
  | .converted _, S => fun x y => S [] [] ∨ x = y
  | .rows form _ ms _, S => fun xs ys =>
    (form.items xs).length = (form.items ys).length ∧
      ∀ i x y, (form.items xs)[i]? = some x → (form.items ys)[i]? = some y →
        ms.AgreeExcept (fun number position indexes => S (number :: position) (i :: indexes)) x y
  | .ignored _, _ => fun x y => x = y

/-- The values of members have the same shape and differ in leaves at the places only. -/
def Members.AgreeExcept : (ms : Members) → (S : Nat → Places) → ms.El → ms.El → Prop
  | .nil, _ => fun _ _ => True
  | .cons _ t rest, S => fun x y =>
    t.AgreeExcept (S 0) x.1 y.1 ∧ rest.AgreeExcept (fun later => S (t.behind later)) x.2 y.2

end

/-- The rows have the same shape and differ in leaves at the places only. Members without a column
are the same. -/
def RecordType.AgreeExcept (r : RecordType) (S : Places) (row row' : r.Row) : Prop :=
  r.members.AgreeExcept (fun number position => S (number :: position)) row row'

mutual

theorem MemberType.agreeExcept_refl : (t : MemberType) → (S : Places) → (x : t.El) →
    t.AgreeExcept S x x
  | .cell _, _, _ => .inr rfl
  | .converted _, _, _ => .inr rfl
  | .rows _ _ ms _, _, _ => ⟨rfl, fun _ x _ hx hy =>
    Option.some.inj (hx.symm.trans hy) ▸ ms.agreeExcept_refl _ x⟩
  | .ignored _, _, _ => rfl

theorem Members.agreeExcept_refl : (ms : Members) → (S : Nat → Places) → (x : ms.El) →
    ms.AgreeExcept S x x
  | .nil, _, _ => trivial
  | .cons _ t rest, _, x => ⟨t.agreeExcept_refl _ x.1, rest.agreeExcept_refl _ x.2⟩

end

mutual

/-- A write at a place of a member changes nothing at other places. -/
theorem MemberType.agreeExcept_writeAt (v : Value) : (t : MemberType) → (S : Places) →
    (position indexes : List Nat) → S position indexes → (x : t.El) →
    t.AgreeExcept S x (t.writeAt v position indexes x).1
  | .cell _, _, [], [], hS, _ => .inl hS
  | .converted _, _, [], [], hS, _ => .inl hS
  | .rows form head ms via, S, number :: position, i :: indexes, hS, xs => by
    cases hx : (form.items xs)[i]? with
    | none =>
      simp only [MemberType.writeAt, hx]
      exact (MemberType.rows form head ms via).agreeExcept_refl S xs
    | some x =>
      simp only [MemberType.writeAt, hx]
      refine ⟨(RowsForm.length_items_set _).symm, fun j y z hy hz => ?_⟩
      by_cases hj : i = j
      · -- the element that the write goes through
        subst hj
        obtain rfl := Option.some.inj (hx.symm.trans hy)
        obtain rfl := Option.some.inj ((RowsForm.getElem?_items_set hx _).symm.trans hz)
        exact ms.agreeExcept_writeAt v _ number position indexes hS x
      · obtain rfl := Option.some.inj
          (hy.symm.trans ((RowsForm.getElem?_items_set_ne hj _).symm.trans hz))
        exact ms.agreeExcept_refl _ y
  | .rows form head ms via, S, [], _, _, xs =>
    (MemberType.rows form head ms via).agreeExcept_refl S xs
  | .rows form head ms via, S, _ :: _, [], _, xs =>
    (MemberType.rows form head ms via).agreeExcept_refl S xs
  | .cell _, _, _ :: _, _, _, _ => .inr rfl
  | .cell _, _, [], _ :: _, _, _ => .inr rfl
  | .converted _, _, _ :: _, _, _, _ => .inr rfl
  | .converted _, _, [], _ :: _, _, _ => .inr rfl
  | .ignored _, _, _, _, _, _ => rfl

/-- A write at a place of members changes nothing at other places. -/
theorem Members.agreeExcept_writeAt (v : Value) : (ms : Members) → (S : Nat → Places) →
    (number : Nat) → (position indexes : List Nat) → S number position indexes → (x : ms.El) →
    ms.AgreeExcept S x (ms.writeAt v number position indexes x).1
  | .nil, _, _, _, _, _, _ => trivial
  | .cons info t rest, S, number, position, indexes, hS, x => by
    obtain ⟨-, rfl, hpick⟩ | ⟨later, rfl, hpick⟩ := t.pick_cases number
    · rw [Members.writeAt_cons, hpick]
      exact ⟨t.agreeExcept_writeAt v (S 0) position indexes hS x.1, rest.agreeExcept_refl _ x.2⟩
    · rw [Members.writeAt_cons, hpick]
      exact ⟨t.agreeExcept_refl _ x.1,
        rest.agreeExcept_writeAt v _ later position indexes hS x.2⟩

end

mutual

/-- Where values of a member may not differ, they are read alike. -/
theorem MemberType.readAt_congr : (t : MemberType) → {S : Places} → (x y : t.El) →
    t.AgreeExcept S x y → (position indexes : List Nat) → ¬ S position indexes →
    t.readAt position indexes x = t.readAt position indexes y
  | .cell _, _, _, _, h, [], [], hS => by rw [h.resolve_left hS]
  | .converted _, _, _, _, h, [], [], hS => by rw [h.resolve_left hS]
  | .rows form _ ms _, _, xs, ys, h, number :: position, i :: indexes, hS => by
    obtain ⟨hlength, helements⟩ := h
    cases hx : (form.items xs)[i]? with
    | none =>
      have hy : (form.items ys)[i]? = none := by
        rw [List.getElem?_eq_none_iff] at hx ⊢
        exact hlength ▸ hx
      simp only [MemberType.readAt, hx, hy, hlength]
    | some x =>
      have hi : i < (form.items ys).length := hlength ▸ (List.getElem?_eq_some_iff.mp hx).1
      have hy : (form.items ys)[i]? = some (form.items ys)[i] := List.getElem?_eq_getElem hi
      simp only [MemberType.readAt, hx, hy]
      exact ms.readAt_congr x _ (helements i x _ hx hy) number position indexes hS
  -- elsewhere there is no leaf, so both are refused alike
  | .cell _, _, _, _, _, _ :: _, _, _ => rfl
  | .cell _, _, _, _, _, [], _ :: _, _ => rfl
  | .converted _, _, _, _, _, _ :: _, _, _ => rfl
  | .converted _, _, _, _, _, [], _ :: _, _ => rfl
  | .rows .., _, _, _, _, [], _, _ => rfl
  | .rows .., _, _, _, _, _ :: _, [], _ => rfl
  | .ignored _, _, _, _, _, _, _, _ => rfl

/-- Where values of members may not differ, they are read alike. -/
theorem Members.readAt_congr : (ms : Members) → {S : Nat → Places} → (x y : ms.El) →
    ms.AgreeExcept S x y → (number : Nat) → (position indexes : List Nat) →
    ¬ S number position indexes →
    ms.readAt number position indexes x = ms.readAt number position indexes y
  | .nil, _, _, _, _, _, _, _, _ => rfl
  | .cons _ t rest, _, x, y, h, number, position, indexes, hS => by
    obtain ⟨-, rfl, hpick⟩ | ⟨later, rfl, hpick⟩ := t.pick_cases number
    · rw [Members.readAt_cons, Members.readAt_cons, hpick, hpick]
      exact t.readAt_congr x.1 y.1 h.1 position indexes hS
    · rw [Members.readAt_cons, Members.readAt_cons, hpick, hpick]
      exact rest.readAt_congr x.2 y.2 h.2 later position indexes hS

end

/-- Lists of one length whose elements agree are put together from alike parts. -/
theorem flatMap_zipIdx_congr {α β : Type} {xs ys : List α} (hlength : xs.length = ys.length)
    {f : α × Nat → List β}
    (h : ∀ i x y, xs[i]? = some x → ys[i]? = some y → f (x, i) = f (y, i)) :
    xs.zipIdx.flatMap f = ys.zipIdx.flatMap f := by
  have hparts : xs.zipIdx.map f = ys.zipIdx.map f := by
    refine List.ext_getElem (by simp [hlength]) fun i hi hi' => ?_
    have hx : i < xs.length := by simpa using hi
    have hy : i < ys.length := by simpa using hi'
    simpa using h i xs[i] ys[i] (List.getElem?_eq_getElem hx) (List.getElem?_eq_getElem hy)
  rw [List.flatMap_def, List.flatMap_def, hparts]

mutual

/-- Values of a member that agree in shape have their leaves at the same places. -/
theorem MemberType.map_place_leaves_congr : (t : MemberType) → {S : Places} → (x y : t.El) →
    t.AgreeExcept S x y → (position indexes : List Nat) →
    (t.leaves position indexes x).map Leaf.place = (t.leaves position indexes y).map Leaf.place
  | .cell _, _, _, _, _, _, _ => rfl
  | .converted _, _, _, _, _, _, _ => rfl
  | .rows form _ ms _, _, xs, ys, h, position, indexes => by
    simp only [MemberType.leaves, List.map_flatMap]
    exact flatMap_zipIdx_congr h.1 fun i x y hx hy =>
      ms.map_place_leaves_congr x y (h.2 i x y hx hy) position 0 (indexes ++ [i])
  | .ignored _, _, _, _, _, _, _ => rfl

theorem Members.map_place_leaves_congr : (ms : Members) → {S : Nat → Places} → (x y : ms.El) →
    ms.AgreeExcept S x y → (position : List Nat) → (number : Nat) → (indexes : List Nat) →
    (ms.leaves position number indexes x).map Leaf.place =
      (ms.leaves position number indexes y).map Leaf.place
  | .nil, _, _, _, _, _, _, _ => rfl
  | .cons _ t rest, _, x, y, h, position, number, indexes => by
    simp only [Members.leaves, List.map_append]
    rw [t.map_place_leaves_congr x.1 y.1 h.1, rest.map_place_leaves_congr x.2 y.2 h.2]

end

/-! ### Rows -/

namespace RecordType

variable (r : RecordType) {S : Places} {row row' : r.Row} {position : List Nat}

/-- A write at a place of a row comes to one of its ends. -/
theorem writeOutcome (path : String) {T : LeafType} (hT : r.leafType? position = some T)
    (v : Value) (indexes : List Nat) (row : r.Row) :
    WriteOutcome path T v (r.readAt path position indexes) row
      (r.writeAt path v position indexes row) := by
  cases position with
  | nil => cases hT
  | cons number below =>
    by_cases hlength : indexes.length = below.length
    · have hread : r.readAt path (number :: below) indexes = fun y =>
          (r.members.readAt number below indexes y).mapError (AccessError.withPath path) :=
        funext fun _ => if_pos hlength
      simp only [hread, writeAt, atPlace, if_pos hlength]
      exact (r.members.writeOutcome v T number below indexes hT row).atPath path
    · simp only [writeAt, atPlace, if_neg hlength]
      exact .unreachable (by simp only [readAt, atPlace, if_neg hlength])

/-- A write at a place of a row changes nothing at other places. -/
theorem agreeExcept_writeAt (path : String) (v : Value) {indexes : List Nat}
    (hS : S position indexes) (row : r.Row) :
    r.AgreeExcept S row (r.writeAt path v position indexes row).1 := by
  cases position with
  | nil => exact r.members.agreeExcept_refl _ row
  | cons number below =>
    by_cases hlength : indexes.length = below.length
    · simp only [writeAt, atPlace, if_pos hlength]
      exact r.members.agreeExcept_writeAt v _ number below indexes hS row
    · simp only [writeAt, atPlace, if_neg hlength]
      exact r.members.agreeExcept_refl _ row

variable (h : r.AgreeExcept S row row')

include h

theorem readAt_congr (path : String) {indexes : List Nat} (hS : ¬ S position indexes) :
    r.readAt path position indexes row = r.readAt path position indexes row' := by
  cases position with
  | nil => rfl
  | cons number below =>
    simp only [readAt, atPlace, r.members.readAt_congr row row' h number below indexes hS]

/-- Rows of the same shape are walked alike. -/
theorem walk_congr : r.properties.walk row = r.properties.walk row' := by
  -- a walk is told by the places of the leaves that it meets
  have hplaces : ∀ row : r.Row, List.Forall₂
      (fun place s => r.properties.descend? place.1 = some s.1 ∧ place.2 = s.2)
      ((r.leaves row).map Leaf.place) (r.properties.walk row) := fun row =>
    List.forall₂_map_left_iff.mpr ((r.leaves_eq_walk row).imp fun _ _ h => ⟨h.node, h.indexes⟩)
  have hunique : Relator.RightUnique fun (place : List Nat × List Nat)
      (s : PropertyNode.Site r.Row) =>
        r.properties.descend? place.1 = some s.1 ∧ place.2 = s.2 :=
    fun _ _ _ hs ht =>
      Prod.ext (Option.some.inj (hs.1.symm.trans ht.1)) (hs.2.symm.trans ht.2)
  have hrow := hplaces row
  rw [leaves, r.members.map_place_leaves_congr row row' h] at hrow
  exact hunique.forall₂ hrow (hplaces row')

end RecordType

/-- The row after a write differs in the leaf at one place only: all other leaves read as before,
the walk meets the same leaves, and all that is no leaf is as it was. -/
structure RecordType.ChangedAt (r : RecordType) (position indexes : List Nat) (row row' : r.Row) :
    Prop where
  others : ∀ {position' m}, r.properties.descend? position' = some m → m.isLeaf = true →
    ∀ indexes', (position', indexes') ≠ (position, indexes) →
      m.get row' indexes' = m.get row indexes'
  walk_eq : r.properties.walk row' = r.properties.walk row
  agree : r.AgreeExcept (fun position' indexes' => position' = position ∧ indexes' = indexes)
    row row'

theorem RecordType.changedAt_of_agreeExcept {r : RecordType} {position indexes : List Nat}
    {row row' : r.Row} (h : r.AgreeExcept
      (fun position' indexes' => position' = position ∧ indexes' = indexes) row row') :
    r.ChangedAt position indexes row row' where
  others hm hleaf indexes' hne := by
    obtain ⟨-, hreads⟩ := r.operates hm hleaf
    rw [(hreads row' indexes').1, (hreads row indexes').1]
    exact (r.readAt_congr h _ fun hsame => hne (Prod.ext hsame.1 hsame.2)).symm
  walk_eq := (r.walk_congr h).symm
  agree := h

/-- A write to a leaf, whatever the indexes and the value. If it succeeds, the leaf shows what its
type has read from the value, and nothing else has changed. It fails where the leaf cannot be read
either, and where its type does not read the value; then the write in place leaves the row exactly
as it was. -/
theorem RecordType.set_changes_one_leaf (r : RecordType) (row : r.Row) {position : List Nat}
    {n : PropertyNode r.Row} (hn : r.properties.descend? position = some n)
    (hleaf : n.isLeaf = true) (indexes : List Nat) (v : Value) :
    ∃ T, r.leafType? position = some T ∧
      (∀ row', n.set row indexes v = .ok row' →
        r.writeAt n.path v position indexes row = (row', .ok ()) ∧
        (∃ new, T.reread v = .ok new ∧ n.get row' indexes = .ok new) ∧
        r.ChangedAt position indexes row row') ∧
      (∀ e, n.set row indexes v = .error e →
        r.writeAt n.path v position indexes row = (row, .error e)) ∧
      ∀ e, n.set row indexes v = .error e ↔
        n.get row indexes = .error e ∨
        ∃ old cause, n.get row indexes = .ok old ∧ T.reread v = .error cause ∧
          e = .cell n.path cause := by
  obtain ⟨⟨T, hT⟩, hoperates⟩ := r.operates hn hleaf
  have hframe : r.ChangedAt position indexes row (r.writeAt n.path v position indexes row).1 :=
    changedAt_of_agreeExcept (r.agreeExcept_writeAt n.path v ⟨rfl, rfl⟩ row)
  have houtcome := r.writeOutcome n.path hT v indexes row
  have hget : ∀ row, n.get row indexes = r.readAt n.path position indexes row := fun row =>
    (hoperates row indexes).1
  refine ⟨T, hT, ?_⟩
  simp only [hget, (hoperates row indexes).2 v]
  generalize r.writeAt n.path v position indexes row = written at houtcome hframe ⊢
  -- no leaf is reached, or the value is not read, or the leaf is written
  cases houtcome with
  | unreachable hplace =>
    refine ⟨fun row' h => (by cases h), fun e h => ?_, fun e => ⟨fun h => ?_, fun h => ?_⟩⟩
    · cases h
      rfl
    · cases h
      exact .inl hplace
    · obtain h | ⟨_, _, hold, -⟩ := h
      · cases hplace.symm.trans h
        rfl
      · cases hplace.symm.trans hold
  | unreadable hplace hvalue =>
    refine ⟨fun row' h => (by cases h), fun e h => ?_, fun e => ⟨fun h => ?_, fun h => ?_⟩⟩
    · cases h
      rfl
    · cases h
      exact .inr ⟨_, _, hplace, hvalue, rfl⟩
    · obtain h | ⟨_, cause, -, hcause, rfl⟩ := h
      · cases hplace.symm.trans h
      · cases hvalue.symm.trans hcause
        rfl
  | done hplace hvalue hnew =>
    refine ⟨fun row' h => ?_, fun e h => (by cases h),
      fun e => ⟨fun h => (by cases h), fun h => ?_⟩⟩
    · cases h
      exact ⟨rfl, ⟨_, hvalue, hnew⟩, hframe⟩
    · obtain h | ⟨_, _, -, hcause, -⟩ := h
      · cases hplace.symm.trans h
      · cases hvalue.symm.trans hcause

/-- Some heroes of a kind. -/
def Game.heroes (hero : String) (count : Nat) (h : IntKind.u8.Holds count) : Game.spawn.Row :=
  (.ofKey hero, ⟨count, h⟩, ())

/-- A stage of two waves; the second one has one group of heroes. -/
def Game.keep : Game.stage.record.Row :=
  ("keep", [([heroes "1" 4 (by decide), heroes "2" 2 (by decide)], ["dawn"], none, ()),
    ([heroes "3" 1 (by decide)], [], none, ())], heroes "3" 1 (by decide), ())

/-- The group of heroes in the second wave gets another count, and all else stays. -/
theorem RecordType.set_changes_one_leaf_stage :
    ∃ n row', Game.stage.record.properties.descend? [1, 0, 1] = some n ∧ n.isLeaf = true ∧
      n.set Game.keep [1, 0] (.int ⟨9, by decide⟩) = .ok row' ∧
      n.get row' [1, 0] = .ok (.int ⟨9, by decide⟩) ∧
      Game.stage.record.ChangedAt [1, 0, 1] [1, 0] Game.keep row' := by
  refine ⟨_, _, rfl, rfl, rfl, ?_⟩
  have hn : Game.stage.record.properties.descend? [1, 0, 1] = some _ := rfl
  obtain ⟨T, hT, hdone, -⟩ := Game.stage.record.set_changes_one_leaf Game.keep hn rfl [1, 0]
    (.int ⟨9, by decide⟩)
  obtain ⟨-, ⟨new, hvalue, hnew⟩, hchanged⟩ := hdone _ rfl
  cases hT
  cases hvalue
  exact ⟨hnew, hchanged⟩

end TypedSheets
