import Mathlib.Data.Fin.Basic
import Mathlib.Data.List.Forall2
import Mathlib.Data.Subtype
import Mathlib.Tactic.Convert
import TypedSheets.Cell.Read
import TypedSheets.Proofs.Cell.Parts
import TypedSheets.Proofs.Sorted

/-!
# The order and the items of collections

The comparison of a cell type is a total order that tells different values apart, as long as no
dynamic value is compared. Sets and maps are sorted by it.

A collection is read if each of its items is, and then item by item. What a reader of a collection
gives is put in terms of what the reader of the items gives.

## Main definitions

* `LawfulOrder` — a comparison that is a total order whose ties are equalities

## Main results

* `DataType.cmp_lawful` — the comparison of plain data is such an order
* `CellType.cmp_lawful`, `Members.cmp_lawful` — so are those of static cell types and members
* `readEach_eq_ok_iff`, `readEntries_eq_ok_iff` — every item is read
* `exists_of_mem_readSequence`, `exists_of_mem_readSet`, `exists_of_mem_readMap`,
  `exists_of_mem_readArray` — what is in a collection was read from an item
* `readSequence_map`, `readSet_map`, `readMap_map`, `readArray_map` — items that are read one by one
-/

namespace TypedSheets

/-- A total order whose ties are equalities. -/
class LawfulOrder {α : Type} (cmp : α → α → Ordering) : Prop extends
  Std.TransCmp cmp, Std.LawfulEqCmp cmp

namespace LawfulOrder

variable {α β : Type} {cmp : α → α → Ordering}

/-- An order of the values of a function that tells its arguments apart. -/
theorem comap (h : LawfulOrder cmp) {f : β → α} (hf : Function.Injective f) :
    LawfulOrder fun a b => cmp (f a) (f b) where
  eq_swap := h.eq_swap
  isLE_trans := h.isLE_trans
  compare_self := h.compare_self
  eq_of_compare heq := hf (h.eq_of_compare heq)

theorem of_ord [Ord α] [Std.TransOrd α] [Std.LawfulEqOrd α] :
    LawfulOrder (compare : α → α → Ordering) where
  eq_swap := Std.OrientedCmp.eq_swap
  isLE_trans := Std.TransCmp.isLE_trans
  compare_self := Std.ReflCmp.compare_self
  eq_of_compare := Std.LawfulEqCmp.eq_of_compare

theorem text : LawfulOrder compareText := of_ord

theorem option (h : LawfulOrder cmp) : LawfulOrder (cmpOption cmp) where
  eq_swap {a b} := by
    cases a <;> cases b <;> simp only [cmpOption, Ordering.swap]
    exact h.eq_swap
  isLE_trans {a b c} hab hbc := by
    cases a <;> cases b <;> cases c <;> simp only [cmpOption] at hab hbc ⊢ <;>
      first | exact h.isLE_trans hab hbc | contradiction | rfl
  compare_self {a} := by
    cases a with
    | none => rfl
    | some x => exact h.compare_self
  eq_of_compare {a b} heq := by
    cases a <;> cases b <;> simp only [cmpOption, reduceCtorEq] at heq ⊢
    exact congrArg some (h.eq_of_compare heq)

theorem cmpList_eq_compareLex (cmp : α → α → Ordering) : cmpList cmp = List.compareLex cmp := by
  funext xs ys
  induction xs generalizing ys with
  | nil => cases ys <;> rfl
  | cons x xs ih =>
    cases ys with
    | nil => rfl
    | cons y ys => rw [cmpList, List.compareLex_cons_cons, ih]

theorem list (h : LawfulOrder cmp) : LawfulOrder (cmpList cmp) := by
  rw [cmpList_eq_compareLex]
  exact
    { eq_swap := Std.OrientedCmp.eq_swap
      isLE_trans := Std.TransCmp.isLE_trans
      compare_self := Std.ReflCmp.compare_self
      eq_of_compare := Std.LawfulEqCmp.eq_of_compare }

theorem pair {cmp' : β → β → Ordering} (h : LawfulOrder cmp) (h' : LawfulOrder cmp') :
    LawfulOrder (cmpPair cmp cmp') := by
  have first : Std.TransCmp fun a b : α × β => cmp a.1 b.1 :=
    { eq_swap := h.eq_swap, isLE_trans := h.isLE_trans }
  have second : Std.TransCmp fun a b : α × β => cmp' a.2 b.2 :=
    { eq_swap := h'.eq_swap, isLE_trans := h'.isLE_trans }
  -- the library's lexicographic comparison, for the two projections
  have lex : Std.TransCmp (cmpPair cmp cmp') :=
    inferInstanceAs (Std.TransCmp
      (compareLex (fun a b : α × β => cmp a.1 b.1) fun a b : α × β => cmp' a.2 b.2))
  exact
    { eq_swap := lex.eq_swap
      isLE_trans := lex.isLE_trans
      compare_self := by
        intro a
        rw [cmpPair, h.compare_self, h'.compare_self]
        rfl
      eq_of_compare := by
        intro a b heq
        obtain ⟨h1, h2⟩ := Ordering.then_eq_eq.mp heq
        exact Prod.ext (h.eq_of_compare h1) (h'.eq_of_compare h2) }

end LawfulOrder

open LawfulOrder

/-! ### Values without parts -/

theorem ScalarType.cmp_lawful (s : ScalarType) : LawfulOrder s.cmp := by
  cases s with
  | bool => exact of_ord.comap fun a b h => by cases a <;> cases b <;> first | rfl | cases h
  | int k => exact of_ord.comap Subtype.val_injective
  | single => exact of_ord.comap fun ⟨a⟩ ⟨b⟩ h => congrArg Number.Binary.mk (Fin.ext h)
  | double => exact of_ord.comap fun ⟨a⟩ ⟨b⟩ h => congrArg Number.Binary.mk (Fin.ext h)
  | text => exact LawfulOrder.text

theorem DataType.cmp_lawful : (d : DataType) → LawfulOrder d.cmp
  | .scalar s => s.cmp_lawful
  | .choice _ _ => of_ord.comap Fin.val_injective
  | .option d => d.cmp_lawful.option
  | .list d => d.cmp_lawful.list
  | .pair a b => a.cmp_lawful.pair b.cmp_lawful

theorem RowKey.cmp_lawful : LawfulOrder RowKey.cmp :=
  of_ord.comap (f := RowKey.packed) fun ⟨_⟩ ⟨_⟩ h => congrArg RowKey.mk h

theorem SheetRef.cmp_lawful : LawfulOrder SheetRef.cmp := by
  have h := (LawfulOrder.text.pair RowKey.cmp_lawful.option).comap
    (f := fun r : SheetRef => (r.key, r.resolved)) fun ⟨_, _⟩ ⟨_, _⟩ h => by simp_all
  convert h using 1
  funext ⟨k, r⟩ ⟨k', r'⟩
  cases r <;> cases r' <;> rfl

theorem AssetRef.cmp_lawful : LawfulOrder AssetRef.cmp := by
  have handle : LawfulOrder fun a b : AssetHandle =>
      cmpPair compareText (cmpPair (cmpOption compareText) compareText)
        (a.path, a.sub, a.location) (b.path, b.sub, b.location) :=
    (LawfulOrder.text.pair (LawfulOrder.text.option.pair LawfulOrder.text)).comap
      fun ⟨_, _, _⟩ ⟨_, _, _⟩ h => by simp_all
  have h := (LawfulOrder.text.pair (LawfulOrder.text.option.pair handle.option)).comap
    (f := fun a : AssetRef => (a.path, a.sub, a.handle)) fun ⟨_, _, _⟩ ⟨_, _, _⟩ h => by simp_all
  convert h using 1
  funext ⟨p, s, a⟩ ⟨p', s', a'⟩
  rcases s with _ | s <;> rcases s' with _ | s' <;> rcases a with _ | ⟨_, _ | _, _⟩ <;>
    rcases a' with _ | ⟨_, _ | _, _⟩ <;> rfl

/-! ### Nested values -/

theorem RowsForm.items_injective {α : Type} (form : RowsForm) :
    Function.Injective (form.items : form.Holder α → List α) := by
  cases form with
  | list => exact fun _ _ h => h
  | boxedSlice => exact fun _ _ h => h
  | array length => exact Subtype.val_injective

mutual

/-- Values of a type without dynamic ones are ordered, and different ones are told apart. -/
theorem CellType.cmp_lawful : (t : CellType) → t.Static → LawfulOrder t.cmp
  | .scalar s, _ => s.cmp_lawful
  | .option t, h => (t.cmp_lawful h.2).option
  | .sequence _ t, h => (t.cmp_lawful h.2).list
  | .array t _, h => (t.cmp_lawful h.2).list.comap Subtype.val_injective
  | .set _ t, h => (t.cmp_lawful h.2).list
  | .map _ _ k v, h => ((k.cmp_lawful h.2.1).pair (v.cmp_lawful h.2.2)).list
  | .sheetRef _, _ => SheetRef.cmp_lawful
  | .assetRef, _ => AssetRef.cmp_lawful
  | .record _ ms, h => ms.cmp_lawful h.2
  | .any, h => h.elim

/-- Values of a member without dynamic ones are ordered. -/
theorem MemberType.cmp_lawful : (t : MemberType) → t.All CellType.IsStatic (fun _ => True) →
    LawfulOrder t.cmp
  | .cell t, h => t.cmp_lawful h.2
  | .rows form _ ms _, h => (ms.cmp_lawful h.2).list.comap form.items_injective
  | .converted c, _ => c.output.cmp_lawful
  | .ignored d, _ => d.cmp_lawful

/-- Records without dynamic values are ordered. -/
theorem Members.cmp_lawful : (ms : Members) → ms.Static → LawfulOrder ms.cmp
  | .nil, _ =>
    { eq_swap := rfl
      isLE_trans := fun _ _ => rfl
      compare_self := rfl
      eq_of_compare := fun _ => rfl }
  | .cons _ t rest, h => (t.cmp_lawful h.1).pair (rest.cmp_lawful h.2)

end

end TypedSheets

/-! ## Reading items -/

namespace TypedSheets

variable {α β γ : Type} {read : Value → Except CellError α} {readKey : Value → Except CellError α}
  {readValue : Value → Except CellError β}

theorem readEach_eq_ok_iff {vs : List Value} {xs : List α} :
    readEach read vs = .ok xs ↔ List.Forall₂ (fun v x => read v = .ok x) vs xs := by
  induction vs generalizing xs with
  | nil =>
    rw [List.forall₂_nil_left_iff, readEach_nil, Except.ok.injEq]
    exact eq_comm
  | cons v rest ih =>
    rw [List.forall₂_cons_left_iff, readEach]
    cases hv : read v with
    | error e => simp
    | ok x =>
      -- the rest is read only behind a first one that is read
      cases hrest : readEach read rest with
      | error e =>
        constructor
        · intro h
          cases h
        · rintro ⟨_, ys, -, hys, -⟩
          rw [← ih, hrest] at hys
          cases hys
      | ok ys =>
        constructor
        · intro h
          cases h
          exact ⟨x, ys, rfl, ih.mp hrest, rfl⟩
        · rintro ⟨_, zs, ⟨⟩, hzs, rfl⟩
          rw [← ih, hrest] at hzs
          cases hzs
          rfl

theorem readEntries_eq_ok_iff {vs : List (Value × Value)} {es : List (α × β)} :
    readEntries readKey readValue vs = .ok es ↔
      List.Forall₂ (fun v e => readKey v.1 = .ok e.1 ∧ readValue v.2 = .ok e.2) vs es := by
  induction vs generalizing es with
  | nil =>
    rw [List.forall₂_nil_left_iff, readEntries, Except.ok.injEq]
    exact eq_comm
  | cons v rest ih =>
    obtain ⟨k, w⟩ := v
    rw [List.forall₂_cons_left_iff, readEntries]
    -- key, value and rest in turn: the first that fails ends the reading
    cases hk : readKey k with
    | error e => simp
    | ok x =>
      cases hw : readValue w with
      | error e => simp
      | ok y =>
        cases hrest : readEntries readKey readValue rest with
        | error e =>
          constructor
          · intro h
            cases h
          · rintro ⟨_, ys, -, hys, -⟩
            rw [← ih, hrest] at hys
            cases hys
        | ok ys =>
          constructor
          · intro h
            cases h
            exact ⟨(x, y), ys, ⟨rfl, rfl⟩, ih.mp hrest, rfl⟩
          · rintro ⟨⟨_, _⟩, zs, ⟨⟨⟩, ⟨⟩⟩, hzs, rfl⟩
            rw [← ih, hrest] at hzs
            cases hzs
            rfl

theorem exists_of_mem_forall₂ {R : α → β → Prop} {as : List α} {bs : List β}
    (h : List.Forall₂ R as bs) {b : β} (hb : b ∈ bs) : ∃ a ∈ as, R a b := by
  induction h with
  | nil => cases hb
  | cons hr _ ih =>
    rcases List.mem_cons.mp hb with rfl | hb
    · exact ⟨_, List.mem_cons_self, hr⟩
    · obtain ⟨a, ha, hab⟩ := ih hb
      exact ⟨a, List.mem_cons_of_mem _ ha, hab⟩

theorem exists_of_mem_readEach {vs : List Value} {xs : List α} (h : readEach read vs = .ok xs)
    {x : α} (hx : x ∈ xs) : ∃ v ∈ vs, read v = .ok x :=
  exists_of_mem_forall₂ (readEach_eq_ok_iff.mp h) hx

theorem readEach_map {g : γ → Value} {f : γ → α} {ys : List γ}
    (h : ∀ y ∈ ys, read (g y) = .ok (f y)) : readEach read (ys.map g) = .ok (ys.map f) := by
  rw [readEach_eq_ok_iff, List.forall₂_map_left_iff, List.forall₂_map_right_iff]
  exact List.forall₂_same.mpr h

theorem readEntries_map {gk gv : γ → Value} {fk : γ → α} {fv : γ → β} {ys : List γ}
    (h : ∀ y ∈ ys, readKey (gk y) = .ok (fk y) ∧ readValue (gv y) = .ok (fv y)) :
    readEntries readKey readValue (ys.map fun y => (gk y, gv y)) =
      .ok (ys.map fun y => (fk y, fv y)) := by
  rw [readEntries_eq_ok_iff, List.forall₂_map_left_iff, List.forall₂_map_right_iff]
  exact List.forall₂_same.mpr h

/-! ### Sequences -/

theorem readSequence_eq_ok {expected : String} {v : Value} {xs : List α}
    (h : readSequence expected read v = .ok xs) :
    ∃ vs, v.items expected = .ok vs ∧ readEach read vs = .ok xs := by
  rw [readSequence] at h
  split at h
  · cases h
  · next vs hvs => exact ⟨vs, hvs, h⟩

/-- What is in a sequence was read from an item. -/
theorem exists_of_mem_readSequence {expected : String} {v : Value} {xs : List α}
    (h : readSequence expected read v = .ok xs) {x : α} (hx : x ∈ xs) :
    ∃ vs, v.items expected = .ok vs ∧ ∃ w ∈ vs, read w = .ok x := by
  obtain ⟨vs, hvs, heach⟩ := readSequence_eq_ok h
  exact ⟨vs, hvs, exists_of_mem_readEach heach hx⟩

theorem readSequence_map (expected : String) {g : γ → Value} {f : γ → α} {ys : List γ}
    (h : ∀ y ∈ ys, read (g y) = .ok (f y)) :
    readSequence expected read (.list (ys.map g)) = .ok (ys.map f) :=
  readEach_map h

/-! ### Sets and maps -/

theorem readSet_eq_ok {cmp : α → α → Ordering} {v : Value} {xs : List α}
    (h : readSet cmp read v = .ok xs) :
    ∃ ys, readSequence "set" read v = .ok ys ∧ xs = keysOfList cmp ys := by
  rw [readSet] at h
  cases hy : readSequence "set" read v with
  | error e =>
    rw [hy] at h
    cases h
  | ok ys =>
    rw [hy] at h
    cases h
    exact ⟨ys, rfl, rfl⟩

theorem readMap_eq_ok {cmp : α → α → Ordering} {v : Value} {es : List (α × β)}
    (h : readMap cmp readKey readValue v = .ok es) :
    ∃ vs fs, v.entries "map" = .ok vs ∧ readEntries readKey readValue vs = .ok fs ∧
      es = Entries.ofList cmp fs := by
  rw [readMap] at h
  split at h
  · cases h
  · next vs hvs =>
    cases hf : readEntries readKey readValue vs with
    | error e =>
      rw [hf] at h
      cases h
    | ok fs =>
      rw [hf] at h
      cases h
      exact ⟨vs, fs, hvs, hf, rfl⟩

theorem readSet_map {cmp : α → α → Ordering} {g : γ → Value} {f : γ → α} {ys : List γ}
    (h : ∀ y ∈ ys, read (g y) = .ok (f y)) :
    readSet cmp read (.list (ys.map g)) = .ok (keysOfList cmp (ys.map f)) := by
  rw [readSet, readSequence_map "set" h]
  rfl

theorem readMap_map {cmp : α → α → Ordering} {gk gv : γ → Value} {fk : γ → α} {fv : γ → β}
    {ys : List γ} (h : ∀ y ∈ ys, readKey (gk y) = .ok (fk y) ∧ readValue (gv y) = .ok (fv y)) :
    readMap cmp readKey readValue (.map (ys.map fun y => (gk y, gv y))) =
      .ok (Entries.ofList cmp (ys.map fun y => (fk y, fv y))) := by
  rw [readMap, Value.entries]
  simp only [readEntries_map h]
  rfl

/-- What is in a set was read from an item. -/
theorem exists_of_mem_readSet {cmp : α → α → Ordering} {v : Value} {xs : List α}
    (h : readSet cmp read v = .ok xs) {x : α} (hx : x ∈ xs) :
    ∃ vs, v.items "set" = .ok vs ∧ ∃ w ∈ vs, read w = .ok x := by
  obtain ⟨ys, hys, rfl⟩ := readSet_eq_ok h
  exact exists_of_mem_readSequence hys (mem_keysOfList hx)

/-- The key and the value of an entry of a map were read from a key and a value, perhaps of two
entries: the last of several entries with one key gives the value, the first one the key. -/
theorem exists_of_mem_readMap {cmp : α → α → Ordering} {v : Value} {es : List (α × β)}
    (h : readMap cmp readKey readValue v = .ok es) {e : α × β} (he : e ∈ es) :
    ∃ vs, v.entries "map" = .ok vs ∧ (∃ w ∈ vs, readKey w.1 = .ok e.1) ∧
      ∃ w ∈ vs, readValue w.2 = .ok e.2 := by
  obtain ⟨vs, fs, hvs, hfs, rfl⟩ := readMap_eq_ok h
  obtain ⟨hkey, hvalue⟩ := Entries.mem_of_mem_ofList he
  obtain ⟨f, hf, hfk⟩ := List.mem_map.mp hkey
  obtain ⟨f', hf', hfv⟩ := List.mem_map.mp hvalue
  obtain ⟨w, hw, hwk, -⟩ := exists_of_mem_forall₂ (readEntries_eq_ok_iff.mp hfs) hf
  obtain ⟨w', hw', -, hwv⟩ := exists_of_mem_forall₂ (readEntries_eq_ok_iff.mp hfs) hf'
  exact ⟨vs, hvs, ⟨w, hw, hfk ▸ hwk⟩, ⟨w', hw', hfv ▸ hwv⟩⟩

/-! ### Arrays and rows -/

theorem readArray_eq_ok {length : Nat} {v : Value} {xs : ListOf α length}
    (h : readArray read length v = .ok xs) :
    ∃ vs, v.items "array" = .ok vs ∧
      readEach read (if vs.isEmpty then List.replicate length .null else vs) = .ok xs.val := by
  rw [readArray] at h
  split at h
  · cases h
  · next vs hvs =>
    refine ⟨vs, hvs, ?_⟩
    dsimp only at h
    split at h
    · cases h
    · next ys hys =>
      split at h
      · cases h
        exact hys
      · cases h

/-- What is in an array was read from an item or from null. -/
theorem exists_of_mem_readArray {length : Nat} {v : Value} {xs : ListOf α length}
    (h : readArray read length v = .ok xs) {x : α} (hx : x ∈ xs.val) :
    ∃ w, (w = .null ∨ ∃ vs, v.items "array" = .ok vs ∧ w ∈ vs) ∧ read w = .ok x := by
  obtain ⟨vs, hvs, heach⟩ := readArray_eq_ok h
  obtain ⟨w, hw, hread⟩ := exists_of_mem_readEach heach hx
  refine ⟨w, ?_, hread⟩
  split at hw
  · exact Or.inl (List.eq_of_mem_replicate hw)
  · exact Or.inr ⟨vs, hvs, hw⟩

theorem readArray_map {length : Nat} {g : γ → Value} {f : γ → α} {ys : List γ}
    (hlength : ys.length = length) (h : ∀ y ∈ ys, read (g y) = .ok (f y)) :
    readArray read length (.list (ys.map g)) = .ok ⟨ys.map f, by simp [hlength]⟩ := by
  have hitems : (if (ys.map g).isEmpty then List.replicate length .null else ys.map g) =
      ys.map g := by
    -- without items the length is zero
    cases ys with
    | nil => simp [← hlength]
    | cons y rest => rfl
  rw [readArray, Value.items]
  simp only [hitems, readEach_map h, List.length_map, hlength, dif_pos]

/-- What is among rows was read from an item or from null. -/
theorem RowsForm.exists_of_mem_read {form : RowsForm} {v : Value} {xs : form.Holder α}
    (h : form.read read v = .ok xs) {x : α} (hx : x ∈ form.items xs) :
    ∃ w, (w = .null ∨ ∃ expected vs, v.items expected = .ok vs ∧ w ∈ vs) ∧ read w = .ok x := by
  cases form with
  | list =>
    have hlist : readSequence "list" read v = .ok xs := h
    obtain ⟨vs, hvs, w, hw, hread⟩ := exists_of_mem_readSequence hlist hx
    exact ⟨w, Or.inr ⟨"list", vs, hvs, hw⟩, hread⟩
  | boxedSlice =>
    have hlist : readSequence "list" read v = .ok xs := h
    obtain ⟨vs, hvs, w, hw, hread⟩ := exists_of_mem_readSequence hlist hx
    exact ⟨w, Or.inr ⟨"list", vs, hvs, hw⟩, hread⟩
  | array length =>
    obtain ⟨w, hw, hread⟩ := exists_of_mem_readArray h hx
    exact ⟨w, hw.imp_right fun ⟨vs, hvs, hmem⟩ => ⟨"array", vs, hvs, hmem⟩, hread⟩

end TypedSheets
