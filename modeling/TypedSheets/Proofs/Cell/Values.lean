import TypedSheets.Proofs.Cell.Items
import TypedSheets.Proofs.Cell.Scalar

/-!
# The parts of a value

What is asked of a typed value is asked of all values in it: of elements, keys and values, and of
the members of nested records at any depth. Whatever reading gives at every type it gives at every
part of a value, because a part is read from a part.

## Main definitions

* `TargetRef.IsUnresolved`, `AssetRef.IsUnresolved` — references that lead nowhere yet
* `Value.EveryRef` — all references in a dynamic value have a property
* `CellType.Every` — all parts of a typed value have a property
* `CellType.EveryRef` — all references in a typed value do
* `CellType.Canonical` — all sets and maps in a typed value are sorted
* `Value.PartClosed` — a property of dynamic values that passes to what their parts are read from

## Main results

* `CellType.every_of_all`, `Members.every_of_all` — what all values of certain types have
* `CellType.every_imp`, `Members.every_imp` — what one property implies of all parts
* `CellType.ofDatum_toDatum`, `Members.ofDatum_toDatum` — values taken apart and put together
* `CellType.every_ofDatum`, `Members.every_ofDatum` — what converters make, at every part
* `CellType.every_of_read`, `Members.every_of_read` — what reading gives, it gives at every part
* `CellType.canonical_of_read`, `Members.canonical_of_read` — what is read is sorted
-/

namespace TypedSheets

/-! ### References -/

/-- The reference was not looked up yet, or was not found. -/
def TargetRef.IsUnresolved (r : TargetRef) : Prop := r.ref.resolved = none

/-- The reference was not looked up yet, or was not found. -/
def AssetRef.IsUnresolved (a : AssetRef) : Prop := a.handle = none

/-! ### Dynamic values -/

namespace Value

variable (R : TargetRef → Prop) (A : AssetRef → Prop)

mutual

/-- All references in a dynamic value. -/
def EveryRef : Value → Prop
  | .sheetRef r => R r
  | .assetRef a => A a
  | .list items => EveryRefItems items
  | .map entries => EveryRefEntries entries
  | .record cells => EveryRefCells cells
  | .null => True
  | .bool _ => True
  | .int _ => True
  | .float _ => True
  | .text _ => True

/-- All references in the items of a list. -/
def EveryRefItems : List Value → Prop
  | [] => True
  | v :: rest => EveryRef v ∧ EveryRefItems rest

/-- All references in the entries of a map. -/
def EveryRefEntries : List (Value × Value) → Prop
  | [] => True
  | (k, v) :: rest => (EveryRef k ∧ EveryRef v) ∧ EveryRefEntries rest

/-- All references in the cells of a row. -/
def EveryRefCells : List (String × Value) → Prop
  | [] => True
  | (_, v) :: rest => EveryRef v ∧ EveryRefCells rest

end

variable {R : TargetRef → Prop} {A : AssetRef → Prop}

theorem everyRefItems_iff {vs : List Value} :
    EveryRefItems R A vs ↔ ∀ v ∈ vs, v.EveryRef R A := by
  induction vs with
  | nil => simp [EveryRefItems]
  | cons v rest ih => simp [EveryRefItems, ih]

theorem everyRefEntries_iff {es : List (Value × Value)} :
    EveryRefEntries R A es ↔ ∀ e ∈ es, e.1.EveryRef R A ∧ e.2.EveryRef R A := by
  induction es with
  | nil => simp [EveryRefEntries]
  | cons e rest ih => simp [EveryRefEntries, ih]

theorem everyRefCells_iff {cells : List (String × Value)} :
    EveryRefCells R A cells ↔ ∀ c ∈ cells, c.2.EveryRef R A := by
  induction cells with
  | nil => simp [EveryRefCells]
  | cons c rest ih => simp [EveryRefCells, ih]

mutual

theorem everyRef_of_forall (hR : ∀ r, R r) (hA : ∀ a, A a) : (v : Value) → v.EveryRef R A
  | .sheetRef r => hR r
  | .assetRef a => hA a
  | .list items => everyRefItems_of_forall hR hA items
  | .map entries => everyRefEntries_of_forall hR hA entries
  | .record cells => everyRefCells_of_forall hR hA cells
  | .null => trivial
  | .bool _ => trivial
  | .int _ => trivial
  | .float _ => trivial
  | .text _ => trivial

theorem everyRefItems_of_forall (hR : ∀ r, R r) (hA : ∀ a, A a) :
    (vs : List Value) → EveryRefItems R A vs
  | [] => trivial
  | v :: rest => ⟨everyRef_of_forall hR hA v, everyRefItems_of_forall hR hA rest⟩

theorem everyRefEntries_of_forall (hR : ∀ r, R r) (hA : ∀ a, A a) :
    (es : List (Value × Value)) → EveryRefEntries R A es
  | [] => trivial
  | (k, v) :: rest =>
    ⟨⟨everyRef_of_forall hR hA k, everyRef_of_forall hR hA v⟩,
      everyRefEntries_of_forall hR hA rest⟩

theorem everyRefCells_of_forall (hR : ∀ r, R r) (hA : ∀ a, A a) :
    (cells : List (String × Value)) → EveryRefCells R A cells
  | [] => trivial
  | (_, v) :: rest => ⟨everyRef_of_forall hR hA v, everyRefCells_of_forall hR hA rest⟩

end

section Imp

variable {R' : TargetRef → Prop} {A' : AssetRef → Prop}

mutual

theorem everyRef_imp (hR : ∀ r, R r → R' r) (hA : ∀ a, A a → A' a) : (v : Value) →
    v.EveryRef R A → v.EveryRef R' A'
  | .sheetRef r, h => hR r h
  | .assetRef a, h => hA a h
  | .list items, h => everyRefItems_imp hR hA items h
  | .map entries, h => everyRefEntries_imp hR hA entries h
  | .record cells, h => everyRefCells_imp hR hA cells h
  | .null, _ => trivial
  | .bool _, _ => trivial
  | .int _, _ => trivial
  | .float _, _ => trivial
  | .text _, _ => trivial

theorem everyRefItems_imp (hR : ∀ r, R r → R' r) (hA : ∀ a, A a → A' a) : (vs : List Value) →
    EveryRefItems R A vs → EveryRefItems R' A' vs
  | [], _ => trivial
  | v :: rest, h => ⟨everyRef_imp hR hA v h.1, everyRefItems_imp hR hA rest h.2⟩

theorem everyRefEntries_imp (hR : ∀ r, R r → R' r) (hA : ∀ a, A a → A' a) :
    (es : List (Value × Value)) → EveryRefEntries R A es → EveryRefEntries R' A' es
  | [], _ => trivial
  | (k, v) :: rest, h =>
    ⟨⟨everyRef_imp hR hA k h.1.1, everyRef_imp hR hA v h.1.2⟩, everyRefEntries_imp hR hA rest h.2⟩

theorem everyRefCells_imp (hR : ∀ r, R r → R' r) (hA : ∀ a, A a → A' a) :
    (cells : List (String × Value)) → EveryRefCells R A cells → EveryRefCells R' A' cells
  | [], _ => trivial
  | (_, v) :: rest, h => ⟨everyRef_imp hR hA v h.1, everyRefCells_imp hR hA rest h.2⟩

end

end Imp

/-- A property of dynamic values that passes to everything that parts are read from. -/
structure PartClosed (V : Value → Prop) : Prop where
  null : V .null
  items {expected : String} {v : Value} {vs : List Value} :
    V v → v.items expected = .ok vs → ∀ w ∈ vs, V w
  entries {expected : String} {v : Value} {es : List (Value × Value)} :
    V v → v.entries expected = .ok es → ∀ e ∈ es, V e.1 ∧ V e.2
  cell {cells : RawRow} : V (.record cells) → ∀ name, V (cells.cell name)

theorem partClosed_true : PartClosed fun _ => True :=
  ⟨trivial, fun _ _ _ _ => trivial, fun _ _ _ _ => ⟨trivial, trivial⟩, fun _ _ => trivial⟩

end Value

/-! ### Typed values -/

section Every

variable (P : (t : CellType) → t.El → Prop) (Q : (t : MemberType) → t.El → Prop)

mutual

/-- All parts of a typed value, itself included, and all members in it. -/
def CellType.Every : (t : CellType) → t.El → Prop
  | .scalar s => P (.scalar s)
  | .option t => fun (x : Option t.El) => P (.option t) x ∧ ∀ y, x = some y → t.Every y
  | .sequence form t => fun (xs : List t.El) => P (.sequence form t) xs ∧ ∀ y ∈ xs, t.Every y
  | .array t length => fun xs => P (.array t length) xs ∧ ∀ y ∈ xs.val, t.Every y
  | .set form t => fun (xs : List t.El) => P (.set form t) xs ∧ ∀ y ∈ xs, t.Every y
  | .map form shared k v => fun (es : List (k.El × v.El)) =>
    P (.map form shared k v) es ∧ ∀ e ∈ es, k.Every e.1 ∧ v.Every e.2
  | .sheetRef target => P (.sheetRef target)
  | .assetRef => P .assetRef
  | .record head ms => fun x => P (.record head ms) x ∧ ms.Every x
  | .any => P .any

/-- All parts of the value of a member. -/
def MemberType.Every : (t : MemberType) → t.El → Prop
  | .cell t => fun x => Q (.cell t) x ∧ t.Every x
  | .rows form head ms via => fun xs =>
    Q (.rows form head ms via) xs ∧ ∀ y ∈ form.items xs, ms.Every y
  | .converted c => Q (.converted c)
  | .ignored d => Q (.ignored d)

/-- All parts of the values of members. -/
def Members.Every : (ms : Members) → ms.El → Prop
  | .nil => fun _ => True
  | .cons _ t rest => fun x => t.Every x.1 ∧ rest.Every x.2

end

end Every

section EveryOfAll

variable {PT : CellType → Prop} {QT : MemberType → Prop} {P : (t : CellType) → t.El → Prop}
  {Q : (t : MemberType) → t.El → Prop}

mutual

/-- What all values of a type have, the parts of a value have if all types in its type are such. -/
theorem CellType.every_of_all (hP : ∀ t x, PT t → P t x) (hQ : ∀ t x, QT t → Q t x) :
    (t : CellType) → t.All PT QT → (x : t.El) → t.Every P Q x
  | .scalar _, h, x => hP _ x h
  | .option t, h, x => ⟨hP _ x h.1, fun y _ => t.every_of_all hP hQ h.2 y⟩
  | .sequence _ t, h, xs => ⟨hP _ xs h.1, fun y _ => t.every_of_all hP hQ h.2 y⟩
  | .array t _, h, xs => ⟨hP _ xs h.1, fun y _ => t.every_of_all hP hQ h.2 y⟩
  | .set _ t, h, xs => ⟨hP _ xs h.1, fun y _ => t.every_of_all hP hQ h.2 y⟩
  | .map _ _ k v, h, es =>
    ⟨hP _ es h.1, fun e _ => ⟨k.every_of_all hP hQ h.2.1 e.1, v.every_of_all hP hQ h.2.2 e.2⟩⟩
  | .sheetRef _, h, r => hP _ r h
  | .assetRef, h, a => hP _ a h
  | .record _ ms, h, x => ⟨hP _ x h.1, ms.every_of_all hP hQ h.2 x⟩
  | .any, h, v => hP _ v h

theorem MemberType.every_of_all (hP : ∀ t x, PT t → P t x) (hQ : ∀ t x, QT t → Q t x) :
    (t : MemberType) → t.All PT QT → (x : t.El) → t.Every P Q x
  | .cell t, h, x => ⟨hQ _ x h.1, t.every_of_all hP hQ h.2 x⟩
  | .rows _ _ ms _, h, xs => ⟨hQ _ xs h.1, fun y _ => ms.every_of_all hP hQ h.2 y⟩
  | .converted _, h, y => hQ _ y h
  | .ignored _, h, y => hQ _ y h

theorem Members.every_of_all (hP : ∀ t x, PT t → P t x) (hQ : ∀ t x, QT t → Q t x) :
    (ms : Members) → ms.All PT QT → (x : ms.El) → ms.Every P Q x
  | .nil, _, _ => trivial
  | .cons _ t rest, h, x => ⟨t.every_of_all hP hQ h.1 x.1, rest.every_of_all hP hQ h.2 x.2⟩

end

end EveryOfAll

section EveryImp

variable {P P' : (t : CellType) → t.El → Prop} {Q Q' : (t : MemberType) → t.El → Prop}

mutual

/-- What one property implies of a value, it implies of all parts. -/
theorem CellType.every_imp (hP : ∀ t x, P t x → P' t x) (hQ : ∀ t x, Q t x → Q' t x) :
    (t : CellType) → {x : t.El} → t.Every P Q x → t.Every P' Q' x
  | .scalar _, x, h => hP _ x h
  | .option t, x, h => ⟨hP _ x h.1, fun y hy => t.every_imp hP hQ (h.2 y hy)⟩
  | .sequence _ t, xs, h => ⟨hP _ xs h.1, fun y hy => t.every_imp hP hQ (h.2 y hy)⟩
  | .array t _, xs, h => ⟨hP _ xs h.1, fun y hy => t.every_imp hP hQ (h.2 y hy)⟩
  | .set _ t, xs, h => ⟨hP _ xs h.1, fun y hy => t.every_imp hP hQ (h.2 y hy)⟩
  | .map _ _ k v, es, h => ⟨hP _ es h.1, fun e he =>
    ⟨k.every_imp hP hQ (h.2 e he).1, v.every_imp hP hQ (h.2 e he).2⟩⟩
  | .sheetRef _, r, h => hP _ r h
  | .assetRef, a, h => hP _ a h
  | .record _ ms, x, h => ⟨hP _ x h.1, ms.every_imp hP hQ h.2⟩
  | .any, v, h => hP _ v h

theorem MemberType.every_imp (hP : ∀ t x, P t x → P' t x) (hQ : ∀ t x, Q t x → Q' t x) :
    (t : MemberType) → {x : t.El} → t.Every P Q x → t.Every P' Q' x
  | .cell t, x, h => ⟨hQ _ x h.1, t.every_imp hP hQ h.2⟩
  | .rows _ _ ms _, xs, h => ⟨hQ _ xs h.1, fun y hy => ms.every_imp hP hQ (h.2 y hy)⟩
  | .converted _, y, h => hQ _ y h
  | .ignored _, y, h => hQ _ y h

theorem Members.every_imp (hP : ∀ t x, P t x → P' t x) (hQ : ∀ t x, Q t x → Q' t x) :
    (ms : Members) → {x : ms.El} → ms.Every P Q x → ms.Every P' Q' x
  | .nil, _, _ => trivial
  | .cons _ t rest, _, h => ⟨t.every_imp hP hQ h.1, rest.every_imp hP hQ h.2⟩

end

end EveryImp

section EveryRef

variable (R : TargetRef → Prop) (A : AssetRef → Prop)

/-- The reference that a value is, or those that a dynamic value holds. -/
def CellType.RefsHere : (t : CellType) → t.El → Prop
  | .sheetRef target, r => R ⟨target, r⟩
  | .assetRef, a => A a
  | .any, v => Value.EveryRef R A v
  | _, _ => True

/-- All references in a typed value. -/
def CellType.EveryRef (t : CellType) (x : t.El) : Prop :=
  t.Every (CellType.RefsHere R A) (fun _ _ => True) x

/-- All references in the value of a member. -/
def MemberType.EveryRef (t : MemberType) (x : t.El) : Prop :=
  t.Every (CellType.RefsHere R A) (fun _ _ => True) x

/-- All references in the values of members. -/
def Members.EveryRef (ms : Members) (x : ms.El) : Prop :=
  ms.Every (CellType.RefsHere R A) (fun _ _ => True) x

end EveryRef

section EveryRefImp

variable {R R' : TargetRef → Prop} {A A' : AssetRef → Prop}

theorem CellType.refsHere_imp (hR : ∀ r, R r → R' r) (hA : ∀ a, A a → A' a) (t : CellType)
    (x : t.El) (h : t.RefsHere R A x) : t.RefsHere R' A' x := by
  cases t with
  | sheetRef target => exact hR _ h
  | assetRef => exact hA _ h
  | any => exact Value.everyRef_imp hR hA _ h
  | _ => trivial

theorem CellType.everyRef_imp (hR : ∀ r, R r → R' r) (hA : ∀ a, A a → A' a) {t : CellType}
    {x : t.El} (h : t.EveryRef R A x) : t.EveryRef R' A' x :=
  t.every_imp (CellType.refsHere_imp hR hA) (fun _ _ h => h) h

theorem Members.everyRef_imp (hR : ∀ r, R r → R' r) (hA : ∀ a, A a → A' a) {ms : Members}
    {x : ms.El} (h : ms.EveryRef R A x) : ms.EveryRef R' A' x :=
  ms.every_imp (CellType.refsHere_imp hR hA) (fun _ _ h => h) h

end EveryRefImp

/-- A set or map is sorted. -/
def CellType.IsSorted : (t : CellType) → t.El → Prop
  | .set _ t, xs => Increasing t.cmp xs
  | .map _ _ k _, es => Increasing k.cmp (es.map Prod.fst)
  | _, _ => True

/-- All sets and maps in a typed value are sorted. -/
def CellType.Canonical (t : CellType) (x : t.El) : Prop :=
  t.Every CellType.IsSorted (fun _ _ => True) x

/-- All sets and maps in the values of members are sorted. -/
def Members.Canonical (ms : Members) (x : ms.El) : Prop :=
  ms.Every CellType.IsSorted (fun _ _ => True) x

/-! ### Taking apart and putting together -/

theorem Datum.arrayOf_list {α : Type} {of : Datum → α} {length : Nat} {ds : List Datum}
    {xs : ListOf α length} (h : ds.map of = xs.val) : arrayOf of length (.list ds) = xs := by
  have hlength : ds.length = length := by rw [← xs.property, ← h, List.length_map]
  refine Subtype.ext (List.ext_getElem (by simp [arrayOf, xs.property]) fun i hi _ => ?_)
  simp only [arrayOf, List.length_map, List.length_range] at hi
  have hds : i < ds.length := hlength ▸ hi
  simp [arrayOf, Datum.item, Datum.items, ← h, hds]

theorem Datum.map_map_eq_self {α : Type} {of : Datum → α} {parts : α → Datum} {xs : List α}
    (h : ∀ y ∈ xs, of (parts y) = y) : (xs.map parts).map of = xs := by
  rw [List.map_map]
  exact (List.map_congr_left h).trans (List.map_id xs)

theorem Datum.option_map_eq_self {α : Type} {of : Datum → α} {parts : α → Datum} {x : Option α}
    (h : ∀ y, x = some y → of (parts y) = y) : (x.toList.map parts).head?.map of = x := by
  cases x with
  | none => rfl
  | some y => exact congrArg some (h y rfl)

/-- Plain data is put together from what it is taken apart to. -/
theorem DataType.ofDatum_toDatum : (t : DataType) → (x : t.El) → t.ofDatum (t.toDatum x) = x
  | .scalar _, _ => dif_pos rfl
  | .choice _ _, i => Fin.ofNat_val_eq_self i
  | .option t, _ => Datum.option_map_eq_self fun y _ => t.ofDatum_toDatum y
  | .list t, _ => Datum.map_map_eq_self fun y _ => t.ofDatum_toDatum y
  | .pair a b, (x, y) => Prod.ext (a.ofDatum_toDatum x) (b.ofDatum_toDatum y)

theorem RowsForm.ofDatum_toDatum {α : Type} {of : Datum → α} {parts : α → Datum} {form : RowsForm}
    {xs : form.Holder α} (h : ∀ y ∈ form.items xs, of (parts y) = y) :
    form.ofDatum of (form.toDatum parts xs) = xs := by
  cases form with
  | list => exact Datum.map_map_eq_self h
  | boxedSlice => exact Datum.map_map_eq_self h
  | array length => exact Datum.arrayOf_list (Datum.map_map_eq_self h)

mutual

/-- A value is put together from what it is taken apart to, unless it is dynamic in places, its sets
or maps are not sorted, or its references were looked up. -/
theorem CellType.ofDatum_toDatum : (t : CellType) → t.Static → {x : t.El} → t.Canonical x →
    t.EveryRef TargetRef.IsUnresolved AssetRef.IsUnresolved x → t.ofDatum (t.toDatum x) = x
  | .scalar _, _, _, _, _ => dif_pos rfl
  | .option t, ht, _, h, hx =>
    Datum.option_map_eq_self fun y hy => t.ofDatum_toDatum ht.2 (h.2 y hy) (hx.2 y hy)
  | .sequence _ t, ht, _, h, hx =>
    Datum.map_map_eq_self fun y hy => t.ofDatum_toDatum ht.2 (h.2 y hy) (hx.2 y hy)
  | .array t _, ht, _, h, hx => Datum.arrayOf_list <|
    Datum.map_map_eq_self fun y hy => t.ofDatum_toDatum ht.2 (h.2 y hy) (hx.2 y hy)
  | .set _ t, ht, xs, h, hx => by
    have hparts : (xs.map t.toDatum).map t.ofDatum = xs :=
      Datum.map_map_eq_self fun y hy => t.ofDatum_toDatum ht.2 (h.2 y hy) (hx.2 y hy)
    have hcmp := t.cmp_lawful ht.2
    exact (congrArg (keysOfList t.cmp) hparts).trans (keysOfList_eq_self h.1)
  | .map _ _ k v, ht, es, h, hx => by
    have hparts : (es.map fun e => Datum.list [k.toDatum e.1, v.toDatum e.2]).map
        (fun d => (k.ofDatum (d.item 0), v.ofDatum (d.item 1))) = es :=
      Datum.map_map_eq_self fun e he =>
        Prod.ext (k.ofDatum_toDatum ht.2.1 (h.2 e he).1 (hx.2 e he).1)
          (v.ofDatum_toDatum ht.2.2 (h.2 e he).2 (hx.2 e he).2)
    have hcmp := k.cmp_lawful ht.2.1
    exact (congrArg (Entries.ofList k.cmp) hparts).trans (Entries.ofList_eq_self h.1)
  | .sheetRef _, _, ⟨_, none⟩, _, _ => rfl
  | .sheetRef _, _, ⟨_, some _⟩, _, hx => nomatch hx
  | .assetRef, _, ⟨_, _, none⟩, _, _ => rfl
  | .assetRef, _, ⟨_, _, some _⟩, _, hx => nomatch hx
  | .record _ ms, ht, _, h, hx => ms.ofDatum_toDatum ht.2 h.2 hx.2
  | .any, ht, _, _, _ => ht.elim

theorem MemberType.ofDatum_toDatum : (t : MemberType) → t.All CellType.IsStatic (fun _ => True) →
    {x : t.El} → t.Every CellType.IsSorted (fun _ _ => True) x →
    t.EveryRef TargetRef.IsUnresolved AssetRef.IsUnresolved x → t.ofDatum (t.toDatum x) = x
  | .cell t, ht, _, h, hx => t.ofDatum_toDatum ht.2 h.2 hx.2
  | .rows _ _ ms _, ht, _, h, hx => RowsForm.ofDatum_toDatum fun y hy =>
    ms.ofDatum_toDatum ht.2 (h.2 y hy) (hx.2 y hy)
  | .converted c, _, y, _, _ => c.output.ofDatum_toDatum y
  | .ignored d, _, y, _, _ => d.ofDatum_toDatum y

/-- The same for the values of members. -/
theorem Members.ofDatum_toDatum : (ms : Members) → ms.Static → {x : ms.El} → ms.Canonical x →
    ms.EveryRef TargetRef.IsUnresolved AssetRef.IsUnresolved x → ms.ofDatum (ms.toDatum x) = x
  | .nil, _, _, _, _ => rfl
  | .cons _ t rest, ht, _, h, hx =>
    Prod.ext (t.ofDatum_toDatum ht.1 h.1 hx.1) (rest.ofDatum_toDatum ht.2 h.2 hx.2)

end

/-! ### What is read -/

theorem mapError_eq_ok_iff {ε ε' α : Type} {f : ε → ε'} {r : Except ε α} {x : α} :
    r.mapError f = .ok x ↔ r = .ok x := by
  cases r <;> simp [Except.mapError]

theorem readRecord_eq_ok {α : Type} {name : String} {read : RawRow → Except CellError α}
    {v : Value} {x : α} (h : readRecord name read v = .ok x) :
    (∃ cells, v = .record cells ∧ read cells = .ok x) ∨ (v = .null ∧ read .empty = .ok x) := by
  cases v with
  | null => exact Or.inr ⟨rfl, h⟩
  | record cells => exact Or.inl ⟨cells, rfl, h⟩
  | _ => cases h

theorem Members.read_cons_eq_ok {info : MemberInfo} {t : MemberType} {rest : Members} {n : Naming}
    {row : RawRow} {x : (Members.cons info t rest).El}
    (h : (Members.cons info t rest).read n row = .ok x) :
    t.read info.name n row = .ok x.1 ∧ rest.read n row = .ok x.2 := by
  simp only [Members.read] at h
  split at h
  · cases h
  · next y hy =>
    split at h
    · cases h
    · next ys hys =>
      cases h
      exact ⟨hy, hys⟩

theorem Value.PartClosed.cell_empty {V : Value → Prop} (hV : Value.PartClosed V) (name : String) :
    V (RawRow.cell .empty name) :=
  hV.null

/-- The cells of a record that is read, or those of the empty row. -/
theorem Value.PartClosed.of_readRecord {V : Value → Prop} (hV : Value.PartClosed V) {α : Type}
    {name : String} {read : RawRow → Except CellError α} {v : Value} {x : α} (hv : V v)
    (h : readRecord name read v = .ok x) :
    ∃ cells : RawRow, (∀ column, V (cells.cell column)) ∧ read cells = .ok x := by
  rcases readRecord_eq_ok h with ⟨cells, rfl, hread⟩ | ⟨rfl, hread⟩
  · exact ⟨cells, hV.cell hv, hread⟩
  · exact ⟨.empty, hV.cell_empty, hread⟩

/-! ### What converters make -/

theorem Datum.exists_of_mem_arrayOf {α : Type} {of : Datum → α} {length : Nat} {d : Datum} {y : α}
    (h : y ∈ (arrayOf of length d).val) : ∃ w, of w = y := by
  obtain ⟨i, -, heq⟩ := List.mem_map.mp h
  exact ⟨_, heq⟩

theorem RowsForm.exists_of_mem_ofDatum {α : Type} {of : Datum → α} {form : RowsForm} {d : Datum}
    {y : α} (h : y ∈ form.items (form.ofDatum of d)) : ∃ w, of w = y := by
  cases form with
  | list =>
    obtain ⟨w, -, heq⟩ := List.mem_map.mp h
    exact ⟨w, heq⟩
  | boxedSlice =>
    obtain ⟨w, -, heq⟩ := List.mem_map.mp h
    exact ⟨w, heq⟩
  | array length => exact Datum.exists_of_mem_arrayOf h

/-- A converter that makes values gives `P` at the types with `PT` and `Q` at the members with
`QT`. -/
structure MakingGives (PT : CellType → Prop) (QT : MemberType → Prop)
    (P : (t : CellType) → t.El → Prop) (Q : (t : MemberType) → t.El → Prop) : Prop where
  cell {t : CellType} (d : Datum) : PT t → P t (t.ofDatum d)
  member {t : MemberType} (d : Datum) : QT t → Q t (t.ofDatum d)

section Make

variable {PT : CellType → Prop} {QT : MemberType → Prop} {P : (t : CellType) → t.El → Prop}
  {Q : (t : MemberType) → t.El → Prop}

mutual

/-- What putting together gives at every type, it gives at every part. -/
theorem CellType.every_ofDatum (g : MakingGives PT QT P Q) : (t : CellType) → (d : Datum) →
    t.All PT QT → t.Every P Q (t.ofDatum d)
  -- each part was put together from a part of the data
  | .scalar _, d, ht => g.cell d ht
  | .option t, d, ht => by
    refine ⟨g.cell d ht.1, fun y hy => ?_⟩
    obtain ⟨w, -, rfl⟩ := Option.map_eq_some_iff.mp hy
    exact t.every_ofDatum g w ht.2
  | .sequence _ t, d, ht => by
    refine ⟨g.cell d ht.1, fun y hy => ?_⟩
    obtain ⟨w, -, rfl⟩ := List.mem_map.mp hy
    exact t.every_ofDatum g w ht.2
  | .array t _, d, ht => by
    refine ⟨g.cell d ht.1, fun y hy => ?_⟩
    obtain ⟨w, rfl⟩ := Datum.exists_of_mem_arrayOf hy
    exact t.every_ofDatum g w ht.2
  | .set _ t, d, ht => by
    refine ⟨g.cell d ht.1, fun y hy => ?_⟩
    obtain ⟨w, -, rfl⟩ := List.mem_map.mp (mem_keysOfList hy)
    exact t.every_ofDatum g w ht.2
  | .map _ _ k v, d, ht => by
    refine ⟨g.cell d ht.1, fun e he => ?_⟩
    obtain ⟨hkey, hvalue⟩ := Entries.mem_of_mem_ofList he
    rw [List.map_map] at hkey hvalue
    obtain ⟨w, -, hkey⟩ := List.mem_map.mp hkey
    obtain ⟨w', -, hvalue⟩ := List.mem_map.mp hvalue
    rw [← hkey, ← hvalue]
    exact ⟨k.every_ofDatum g _ ht.2.1, v.every_ofDatum g _ ht.2.2⟩
  | .sheetRef _, d, ht => g.cell d ht
  | .assetRef, d, ht => g.cell d ht
  | .record _ ms, d, ht => ⟨g.cell d ht.1, ms.every_ofDatum g d.items ht.2⟩
  | .any, d, ht => g.cell d ht

theorem MemberType.every_ofDatum (g : MakingGives PT QT P Q) : (t : MemberType) → (d : Datum) →
    t.All PT QT → t.Every P Q (t.ofDatum d)
  | .cell t, d, ht => ⟨g.member d ht.1, t.every_ofDatum g d ht.2⟩
  | .rows form _ ms _, d, ht => by
    refine ⟨g.member d ht.1, fun y hy => ?_⟩
    obtain ⟨w, rfl⟩ := form.exists_of_mem_ofDatum hy
    exact ms.every_ofDatum g w.items ht.2
  | .converted _, d, ht => g.member d ht
  | .ignored _, d, ht => g.member d ht

theorem Members.every_ofDatum (g : MakingGives PT QT P Q) : (ms : Members) → (ds : List Datum) →
    ms.All PT QT → ms.Every P Q (ms.ofDatum ds)
  | .nil, _, _ => trivial
  | .cons _ t rest, _, ht => ⟨t.every_ofDatum g _ ht.1, rest.every_ofDatum g _ ht.2⟩

end

end Make

/-- What is read through a converter was made by it. -/
theorem RowsConverter.exists_of_read {α : Type} {c : RowsConverter} {make : Datum → α} {v : Value}
    {x : α} (h : c.read make v = .ok x) : ∃ d, make d = x := by
  rw [RowsConverter.read] at h
  split at h
  · cases h
  · next y _ =>
    cases hd : c.convert y with
    | error e =>
      rw [hd] at h
      cases h
    | ok d =>
      rw [hd] at h
      exact ⟨d, Except.ok.inj h⟩

/-! ### What reading gives -/

/-- From values with the property `V`, reading gives `P` at the types with `PT` and `Q` at the
members with `QT`, and so do converters that make values. -/
structure ReadGives (V : Value → Prop) (PT : CellType → Prop) (QT : MemberType → Prop)
    (P : (t : CellType) → t.El → Prop) (Q : (t : MemberType) → t.El → Prop) : Prop where
  closed : Value.PartClosed V
  cell {t : CellType} {n : Naming} {v : Value} {x : t.El} :
    PT t → V v → t.read n v = .ok x → P t x
  member {t : MemberType} {name : String} {n : Naming} {row : RawRow} {x : t.El} :
    QT t → (∀ column, V (row.cell column)) → t.read name n row = .ok x → Q t x
  made : MakingGives PT QT P Q

section Read

variable {V : Value → Prop} {PT : CellType → Prop} {QT : MemberType → Prop}
  {P : (t : CellType) → t.El → Prop} {Q : (t : MemberType) → t.El → Prop}

mutual

/-- What reading gives at every type, it gives at every part of what is read. -/
theorem CellType.every_of_read (g : ReadGives V PT QT P Q) : (t : CellType) → {n : Naming} →
    {v : Value} → {x : t.El} → t.All PT QT → V v → t.read n v = .ok x → t.Every P Q x
  -- each part was read from a part of the value, and what holds of a value holds of its parts
  | .scalar _, _, _, _, ht, hv, h => g.cell ht hv h
  | .option t, _, _, _, ht, hv, h => by
    refine ⟨g.cell ht.1 hv h, ?_⟩
    rintro y rfl
    exact t.every_of_read g ht.2 hv (isFilled_of_readOption h).2
  | .sequence _ t, _, _, _, ht, hv, h => by
    refine ⟨g.cell ht.1 hv h, fun y hy => ?_⟩
    obtain ⟨vs, hvs, w, hw, hread⟩ := exists_of_mem_readSequence h hy
    exact t.every_of_read g ht.2 (g.closed.items hv hvs w hw) hread
  | .array t _, _, _, _, ht, hv, h => by
    refine ⟨g.cell ht.1 hv h, fun y hy => ?_⟩
    obtain ⟨w, hw, hread⟩ := exists_of_mem_readArray h hy
    refine t.every_of_read g ht.2 ?_ hread
    rcases hw with rfl | ⟨vs, hvs, hw⟩
    · exact g.closed.null
    · exact g.closed.items hv hvs w hw
  | .set _ t, _, _, _, ht, hv, h => by
    refine ⟨g.cell ht.1 hv h, fun y hy => ?_⟩
    obtain ⟨vs, hvs, w, hw, hread⟩ := exists_of_mem_readSet h hy
    exact t.every_of_read g ht.2 (g.closed.items hv hvs w hw) hread
  | .map _ _ k v, _, _, _, ht, hv, h => by
    refine ⟨g.cell ht.1 hv h, fun e he => ?_⟩
    obtain ⟨vs, hvs, ⟨w, hw, hkey⟩, w', hw', hvalue⟩ := exists_of_mem_readMap h he
    exact ⟨k.every_of_read g ht.2.1 (g.closed.entries hv hvs w hw).1 hkey,
      v.every_of_read g ht.2.2 (g.closed.entries hv hvs w' hw').2 hvalue⟩
  | .sheetRef _, _, _, _, ht, hv, h => g.cell ht hv h
  | .assetRef, _, _, _, ht, hv, h => g.cell ht hv h
  | .record _ ms, _, _, _, ht, hv, h => by
    obtain ⟨cells, hcells, hread⟩ := g.closed.of_readRecord hv h
    exact ⟨g.cell ht.1 hv h, ms.every_of_read g ht.2 hcells hread⟩
  | .any, _, _, _, ht, hv, h => g.cell ht hv h

/-- The same for a member, read from the cells of a row. -/
theorem MemberType.every_of_read (g : ReadGives V PT QT P Q) : (t : MemberType) →
    {name : String} → {n : Naming} → {row : RawRow} → {x : t.El} → t.All PT QT →
    (∀ column, V (row.cell column)) → t.read name n row = .ok x → t.Every P Q x
  | .cell t, _, _, _, _, ht, hrow, h =>
    ⟨g.member ht.1 hrow h, t.every_of_read g ht.2 (hrow _) (mapError_eq_ok_iff.mp h)⟩
  | .rows form head ms (some c), _, _, _, _, ht, hrow, h => by
    refine ⟨g.member ht.1 hrow h, fun y hy => ?_⟩
    obtain ⟨d, rfl⟩ := c.exists_of_read (mapError_eq_ok_iff.mp h)
    exact ((MemberType.rows form head ms c).every_ofDatum g.made d ht).2 y hy
  | .rows form _ ms none, _, _, _, _, ht, hrow, h => by
    refine ⟨g.member ht.1 hrow h, fun y hy => ?_⟩
    obtain ⟨w, hw, hread⟩ := form.exists_of_mem_read (mapError_eq_ok_iff.mp h) hy
    have hVw : V w := by
      rcases hw with rfl | ⟨expected, vs, hvs, hw⟩
      · exact g.closed.null
      · exact g.closed.items (hrow _) hvs w hw
    obtain ⟨cells, hcells, hread⟩ := g.closed.of_readRecord hVw hread
    exact ms.every_of_read g ht.2 hcells hread
  | .converted _, _, _, _, _, ht, hrow, h => g.member ht hrow h
  | .ignored _, _, _, _, _, ht, hrow, h => g.member ht hrow h

/-- The same for members. -/
theorem Members.every_of_read (g : ReadGives V PT QT P Q) : (ms : Members) → {n : Naming} →
    {row : RawRow} → {x : ms.El} → ms.All PT QT → (∀ column, V (row.cell column)) →
    ms.read n row = .ok x → ms.Every P Q x
  | .nil, _, _, _, _, _, _ => trivial
  | .cons _ t rest, _, _, _, ht, hrow, h =>
    ⟨t.every_of_read g ht.1 hrow (Members.read_cons_eq_ok h).1,
      rest.every_of_read g ht.2 hrow (Members.read_cons_eq_ok h).2⟩

end

end Read

/-! ### Sorted sets and maps -/

theorem CellType.isSorted_of_read {t : CellType} {n : Naming} {v : Value} {x : t.El}
    (ht : t.HasStaticKeys) (h : t.read n v = .ok x) : t.IsSorted x := by
  cases t with
  | set form t =>
    obtain ⟨ys, -, rfl⟩ := readSet_eq_ok h
    have := t.cmp_lawful ht
    exact increasing_keysOfList ys
  | map form shared k v =>
    obtain ⟨vs, fs, -, -, rfl⟩ := readMap_eq_ok h
    have := k.cmp_lawful ht
    exact Entries.increasing_ofList fs
  | _ => trivial

theorem CellType.isSorted_ofDatum {t : CellType} (d : Datum) (ht : t.HasStaticKeys) :
    t.IsSorted (t.ofDatum d) := by
  cases t with
  | set form t =>
    have := t.cmp_lawful ht
    exact increasing_keysOfList _
  | map form shared k v =>
    have := k.cmp_lawful ht
    exact Entries.increasing_ofList _
  | _ => trivial

theorem readGives_isSorted : ReadGives (fun _ => True) CellType.HasStaticKeys (fun _ => True)
    CellType.IsSorted fun _ _ => True :=
  ⟨Value.partClosed_true, fun ht _ h => CellType.isSorted_of_read ht h, fun _ _ _ => trivial,
    CellType.isSorted_ofDatum, fun _ _ => trivial⟩

/-- The sets and maps in what is read are sorted. -/
theorem CellType.canonical_of_read {t : CellType} {n : Naming} {v : Value} {x : t.El}
    (ht : t.StaticKeys) (h : t.read n v = .ok x) : t.Canonical x :=
  t.every_of_read readGives_isSorted ht trivial h

/-- The sets and maps in the members that are read are sorted. -/
theorem Members.canonical_of_read {ms : Members} {n : Naming} {row : RawRow} {x : ms.El}
    (ht : ms.StaticKeys) (h : ms.read n row = .ok x) : ms.Canonical x :=
  ms.every_of_read readGives_isSorted ht (fun _ => trivial) h

end TypedSheets
