import TypedSheets.Proofs.Cell.Values

/-!
# Replacing references

Linking replaces references, and does nothing else to a value. The same replacement is defined for
dynamic and for typed values: in a set or map, elements and keys are put in order again.

## Main definitions

* `RefMap` — what becomes of references
* `Value.mapRefs`, `CellType.mapRefs`, `Members.mapRefs` — values with their references replaced
* `Members.EveryUnconvertedRef` — all references in members without a converter

## Main results

* `Value.everyRef_mapRefs`, `CellType.everyUnconvertedRef_mapRefs` — every reference of the outcome
  comes from one that was replaced
* `CellType.mapRefs_eq_self`, `Members.mapRefs_eq_self` — a sorted value whose references stay is
  the same
-/

namespace TypedSheets

/-- What becomes of references to rows, of a record type each, and of references to assets. -/
structure RefMap where
  row : (target : String) → SheetRef → SheetRef
  asset : AssetRef → AssetRef

/-- Every reference stays as it is. -/
def RefMap.id : RefMap := ⟨fun _ r => r, fun a => a⟩

/-- One replacement after another: first `f`, then `g`. -/
def RefMap.comp (g f : RefMap) : RefMap :=
  ⟨fun target r => g.row target (f.row target r), fun a => g.asset (f.asset a)⟩

/-- What becomes of a reference together with its record type. -/
def RefMap.targetRef (f : RefMap) (r : TargetRef) : TargetRef := ⟨r.target, f.row r.target r.ref⟩

/-! ### Dynamic values -/

namespace Value

mutual

/-- A dynamic value with its references replaced. -/
def mapRefs (f : RefMap) : Value → Value
  | .sheetRef r => .sheetRef (f.targetRef r)
  | .assetRef a => .assetRef (f.asset a)
  | .list items => .list (mapRefsItems f items)
  | .map entries => .map (mapRefsEntries f entries)
  | .record cells => .record (mapRefsCells f cells)
  | .null => .null
  | .bool b => .bool b
  | .int i => .int i
  | .float d => .float d
  | .text s => .text s

/-- Items with their references replaced. -/
def mapRefsItems (f : RefMap) : List Value → List Value
  | [] => []
  | v :: rest => mapRefs f v :: mapRefsItems f rest

/-- Entries with their references replaced. -/
def mapRefsEntries (f : RefMap) : List (Value × Value) → List (Value × Value)
  | [] => []
  | (k, v) :: rest => (mapRefs f k, mapRefs f v) :: mapRefsEntries f rest

/-- Cells with their references replaced. -/
def mapRefsCells (f : RefMap) : List (String × Value) → List (String × Value)
  | [] => []
  | (name, v) :: rest => (name, mapRefs f v) :: mapRefsCells f rest

end

variable {f : RefMap} {R : TargetRef → Prop} {A : AssetRef → Prop}

theorem mapRefsItems_eq_map (f : RefMap) (vs : List Value) :
    mapRefsItems f vs = vs.map (mapRefs f) := by
  induction vs with
  | nil => rfl
  | cons v rest ih => rw [mapRefsItems, ih, List.map_cons]

theorem mapRefsEntries_eq_map (f : RefMap) (es : List (Value × Value)) :
    mapRefsEntries f es = es.map fun e => (mapRefs f e.1, mapRefs f e.2) := by
  induction es with
  | nil => rfl
  | cons e rest ih => rw [mapRefsEntries, ih, List.map_cons]

theorem cell_mapRefsCells (f : RefMap) (cells : RawRow) (name : String) :
    RawRow.cell (mapRefsCells f cells) name = (cells.cell name).mapRefs f := by
  induction cells with
  | nil => rfl
  | cons c rest ih =>
    simp only [RawRow.cell, RawRow.get?] at ih ⊢
    rw [mapRefsCells, Entries.get?, Entries.get?]
    split
    · rfl
    · exact ih

@[simp] theorem isFilled_mapRefs (f : RefMap) (v : Value) :
    (v.mapRefs f).isFilled = v.isFilled := by
  cases v <;> rfl

mutual

theorem everyRef_mapRefs : (v : Value) →
    v.EveryRef (fun r => R (f.targetRef r)) (fun a => A (f.asset a)) → (v.mapRefs f).EveryRef R A
  | .sheetRef _, h => h
  | .assetRef _, h => h
  | .list items, h => everyRefItems_mapRefs items h
  | .map entries, h => everyRefEntries_mapRefs entries h
  | .record cells, h => everyRefCells_mapRefs cells h
  | .null, _ => trivial
  | .bool _, _ => trivial
  | .int _, _ => trivial
  | .float _, _ => trivial
  | .text _, _ => trivial

theorem everyRefItems_mapRefs : (vs : List Value) →
    EveryRefItems (fun r => R (f.targetRef r)) (fun a => A (f.asset a)) vs →
      EveryRefItems R A (mapRefsItems f vs)
  | [], _ => trivial
  | v :: rest, h => ⟨everyRef_mapRefs v h.1, everyRefItems_mapRefs rest h.2⟩

theorem everyRefEntries_mapRefs : (es : List (Value × Value)) →
    EveryRefEntries (fun r => R (f.targetRef r)) (fun a => A (f.asset a)) es →
      EveryRefEntries R A (mapRefsEntries f es)
  | [], _ => trivial
  | (k, v) :: rest, h =>
    ⟨⟨everyRef_mapRefs k h.1.1, everyRef_mapRefs v h.1.2⟩, everyRefEntries_mapRefs rest h.2⟩

theorem everyRefCells_mapRefs : (cells : List (String × Value)) →
    EveryRefCells (fun r => R (f.targetRef r)) (fun a => A (f.asset a)) cells →
      EveryRefCells R A (mapRefsCells f cells)
  | [], _ => trivial
  | (_, v) :: rest, h => ⟨everyRef_mapRefs v h.1, everyRefCells_mapRefs rest h.2⟩

end

mutual

/-- A value whose references stay is the same. -/
theorem mapRefs_eq_self : (v : Value) →
    v.EveryRef (fun r => f.targetRef r = r) (fun a => f.asset a = a) → v.mapRefs f = v
  | .sheetRef _, h => congrArg Value.sheetRef h
  | .assetRef _, h => congrArg Value.assetRef h
  | .list items, h => congrArg Value.list (mapRefsItems_eq_self items h)
  | .map entries, h => congrArg Value.map (mapRefsEntries_eq_self entries h)
  | .record cells, h => congrArg Value.record (mapRefsCells_eq_self cells h)
  | .null, _ => rfl
  | .bool _, _ => rfl
  | .int _, _ => rfl
  | .float _, _ => rfl
  | .text _, _ => rfl

theorem mapRefsItems_eq_self : (vs : List Value) →
    EveryRefItems (fun r => f.targetRef r = r) (fun a => f.asset a = a) vs →
      mapRefsItems f vs = vs
  | [], _ => rfl
  | v :: rest, h => congrArg₂ List.cons (mapRefs_eq_self v h.1) (mapRefsItems_eq_self rest h.2)

theorem mapRefsEntries_eq_self : (es : List (Value × Value)) →
    EveryRefEntries (fun r => f.targetRef r = r) (fun a => f.asset a = a) es →
      mapRefsEntries f es = es
  | [], _ => rfl
  | (k, v) :: rest, h =>
    congrArg₂ List.cons (congrArg₂ Prod.mk (mapRefs_eq_self k h.1.1) (mapRefs_eq_self v h.1.2))
      (mapRefsEntries_eq_self rest h.2)

theorem mapRefsCells_eq_self : (cells : List (String × Value)) →
    EveryRefCells (fun r => f.targetRef r = r) (fun a => f.asset a = a) cells →
      mapRefsCells f cells = cells
  | [], _ => rfl
  | (name, v) :: rest, h =>
    congrArg₂ List.cons (congrArg (Prod.mk name) (mapRefs_eq_self v h.1))
      (mapRefsCells_eq_self rest h.2)

end

mutual

/-- Two replacements in a row are one. -/
theorem mapRefs_mapRefs (g f : RefMap) : (v : Value) →
    (v.mapRefs f).mapRefs g = v.mapRefs (g.comp f)
  | .sheetRef _ => rfl
  | .assetRef _ => rfl
  | .list items => congrArg Value.list (mapRefsItems_mapRefsItems g f items)
  | .map entries => congrArg Value.map (mapRefsEntries_mapRefsEntries g f entries)
  | .record cells => congrArg Value.record (mapRefsCells_mapRefsCells g f cells)
  | .null => rfl
  | .bool _ => rfl
  | .int _ => rfl
  | .float _ => rfl
  | .text _ => rfl

theorem mapRefsItems_mapRefsItems (g f : RefMap) : (vs : List Value) →
    mapRefsItems g (mapRefsItems f vs) = mapRefsItems (g.comp f) vs
  | [] => rfl
  | v :: rest => congrArg₂ List.cons (mapRefs_mapRefs g f v) (mapRefsItems_mapRefsItems g f rest)

theorem mapRefsEntries_mapRefsEntries (g f : RefMap) : (es : List (Value × Value)) →
    mapRefsEntries g (mapRefsEntries f es) = mapRefsEntries (g.comp f) es
  | [] => rfl
  | (k, v) :: rest =>
    congrArg₂ List.cons (congrArg₂ Prod.mk (mapRefs_mapRefs g f k) (mapRefs_mapRefs g f v))
      (mapRefsEntries_mapRefsEntries g f rest)

theorem mapRefsCells_mapRefsCells (g f : RefMap) : (cells : List (String × Value)) →
    mapRefsCells g (mapRefsCells f cells) = mapRefsCells (g.comp f) cells
  | [] => rfl
  | (name, v) :: rest =>
    congrArg₂ List.cons (congrArg (Prod.mk name) (mapRefs_mapRefs g f v))
      (mapRefsCells_mapRefsCells g f rest)

end

theorem mapRefs_id (v : Value) : v.mapRefs .id = v :=
  mapRefs_eq_self v (everyRef_of_forall (fun _ => rfl) (fun _ => rfl) v)

theorem mapRefsCells_id (cells : List (String × Value)) : mapRefsCells .id cells = cells :=
  mapRefsCells_eq_self cells (everyRefCells_of_forall (fun _ => rfl) (fun _ => rfl) cells)

end Value

/-! ### Typed values -/

/-- The holder of the images of its rows. -/
def RowsForm.map {α β : Type} (f : α → β) : (form : RowsForm) → form.Holder α → form.Holder β
  | .list => List.map f
  | .boxedSlice => List.map f
  | .array _ => fun xs => ⟨xs.val.map f, by simp [xs.property]⟩

@[simp] theorem RowsForm.items_map {α β : Type} (f : α → β) (form : RowsForm)
    (xs : form.Holder α) : form.items (form.map f xs) = (form.items xs).map f := by
  cases form <;> rfl

theorem RowsForm.exists_of_mem_items_map {α β : Type} {f : α → β} {form : RowsForm}
    {xs : form.Holder α} {y : β} (h : y ∈ form.items (form.map f xs)) :
    ∃ x ∈ form.items xs, f x = y := by
  rw [RowsForm.items_map] at h
  exact List.mem_map.mp h

mutual

/-- A typed value with its references replaced. -/
def CellType.mapRefs (f : RefMap) : (t : CellType) → t.El → t.El
  | .scalar _ => fun x => x
  | .option t => Option.map (t.mapRefs f)
  | .sequence _ t => List.map (t.mapRefs f)
  | .array t _ => fun xs => ⟨xs.val.map (t.mapRefs f), by simp [xs.property]⟩
  | .set _ t => fun xs => keysOfList t.cmp (xs.map (t.mapRefs f))
  | .map _ _ k v => fun es =>
    Entries.ofList k.cmp (es.map fun e => (k.mapRefs f e.1, v.mapRefs f e.2))
  | .sheetRef target => f.row target
  | .assetRef => f.asset
  | .record _ ms => ms.mapRefs f
  | .any => Value.mapRefs f

/-- The value of a member with its references replaced. A converter does not show the references of
the rows it writes, so they stay. -/
def MemberType.mapRefs (f : RefMap) : (t : MemberType) → t.El → t.El
  | .cell t => t.mapRefs f
  | .rows form _ ms none => form.map (ms.mapRefs f)
  | .rows _ _ _ (some _) => fun xs => xs
  | .converted _ => fun y => y
  | .ignored _ => fun y => y

/-- The values of members with their references replaced. -/
def Members.mapRefs (f : RefMap) : (ms : Members) → ms.El → ms.El
  | .nil => fun x => x
  | .cons _ t rest => fun x => (t.mapRefs f x.1, rest.mapRefs f x.2)

end

section Every

variable (R : TargetRef → Prop) (A : AssetRef → Prop)

mutual

/-- All references in a typed value, save those in rows that a converter writes. -/
def CellType.EveryUnconvertedRef : (t : CellType) → t.El → Prop
  | .scalar _ => fun _ => True
  | .option t => fun (x : Option t.El) => ∀ y, x = some y → t.EveryUnconvertedRef y
  | .sequence _ t => fun (xs : List t.El) => ∀ y ∈ xs, t.EveryUnconvertedRef y
  | .array t _ => fun xs => ∀ y ∈ xs.val, t.EveryUnconvertedRef y
  | .set _ t => fun (xs : List t.El) => ∀ y ∈ xs, t.EveryUnconvertedRef y
  | .map _ _ k v => fun (es : List (k.El × v.El)) =>
    ∀ e ∈ es, k.EveryUnconvertedRef e.1 ∧ v.EveryUnconvertedRef e.2
  | .sheetRef target => fun r => R ⟨target, r⟩
  | .assetRef => A
  | .record _ ms => ms.EveryUnconvertedRef
  | .any => Value.EveryRef R A

/-- All references in the value of a member without a converter. -/
def MemberType.EveryUnconvertedRef : (t : MemberType) → t.El → Prop
  | .cell t => t.EveryUnconvertedRef
  | .rows form _ ms none => fun xs => ∀ y ∈ form.items xs, ms.EveryUnconvertedRef y
  | .rows _ _ _ (some _) => fun _ => True
  | .converted _ => fun _ => True
  | .ignored _ => fun _ => True

/-- All references in the values of members without a converter. -/
def Members.EveryUnconvertedRef : (ms : Members) → ms.El → Prop
  | .nil => fun _ => True
  | .cons _ t rest => fun x => t.EveryUnconvertedRef x.1 ∧ rest.EveryUnconvertedRef x.2

end

variable {R A} {f : RefMap}

mutual

/-- Every reference of the outcome is what became of one. -/
theorem CellType.everyUnconvertedRef_mapRefs : (t : CellType) → {x : t.El} →
    t.EveryRef (fun r => R (f.targetRef r)) (fun a => A (f.asset a)) x →
      t.EveryUnconvertedRef R A (t.mapRefs f x)
  | .scalar _, _, _ => trivial
  | .option t, x, h => by
    intro y hy
    obtain ⟨z, hz, rfl⟩ := Option.map_eq_some_iff.mp hy
    exact t.everyUnconvertedRef_mapRefs (h.2 z hz)
  | .sequence _ t, xs, h => by
    intro y hy
    obtain ⟨z, hz, rfl⟩ := List.mem_map.mp hy
    exact t.everyUnconvertedRef_mapRefs (h.2 z hz)
  | .array t _, xs, h => by
    intro y hy
    obtain ⟨z, hz, rfl⟩ := List.mem_map.mp hy
    exact t.everyUnconvertedRef_mapRefs (h.2 z hz)
  -- sorting leaves the elements that there are
  | .set _ t, xs, h => by
    intro y hy
    obtain ⟨z, hz, rfl⟩ := List.mem_map.mp (mem_keysOfList hy)
    exact t.everyUnconvertedRef_mapRefs (h.2 z hz)
  | .map _ _ k v, es, h => by
    intro e he
    obtain ⟨⟨z, hz, hzk⟩, w, hw, hwv⟩ := Entries.exists_of_mem_ofList_map he
    rw [hzk, hwv]
    exact ⟨k.everyUnconvertedRef_mapRefs (h.2 z hz).1, v.everyUnconvertedRef_mapRefs (h.2 w hw).2⟩
  | .sheetRef _, _, h => h
  | .assetRef, _, h => h
  | .record _ ms, _, h => ms.everyUnconvertedRef_mapRefs h.2
  | .any, v, h => Value.everyRef_mapRefs v h

theorem MemberType.everyUnconvertedRef_mapRefs : (t : MemberType) → {x : t.El} →
    t.EveryRef (fun r => R (f.targetRef r)) (fun a => A (f.asset a)) x →
      t.EveryUnconvertedRef R A (t.mapRefs f x)
  | .cell t, _, h => t.everyUnconvertedRef_mapRefs h.2
  | .rows form _ ms none, xs, h => by
    intro y hy
    obtain ⟨z, hz, rfl⟩ := form.exists_of_mem_items_map hy
    exact ms.everyUnconvertedRef_mapRefs (h.2 z hz)
  | .rows _ _ _ (some _), _, _ => trivial
  | .converted _, _, _ => trivial
  | .ignored _, _, _ => trivial

theorem Members.everyUnconvertedRef_mapRefs : (ms : Members) → {x : ms.El} →
    ms.EveryRef (fun r => R (f.targetRef r)) (fun a => A (f.asset a)) x →
      ms.EveryUnconvertedRef R A (ms.mapRefs f x)
  | .nil, _, _ => trivial
  | .cons _ t rest, _, h =>
    ⟨t.everyUnconvertedRef_mapRefs h.1, rest.everyUnconvertedRef_mapRefs h.2⟩

end

end Every

/-! ### Replacing nothing -/

theorem map_eq_self {α : Type} {g : α → α} {xs : List α} (h : ∀ x ∈ xs, g x = x) :
    xs.map g = xs :=
  (List.map_congr_left h).trans (List.map_id xs)

section Same

variable {f : RefMap}

mutual

/-- A sorted value whose references stay is the same. -/
theorem CellType.mapRefs_eq_self : (t : CellType) → {x : t.El} → t.StaticKeys → t.Canonical x →
    t.EveryRef (fun r => f.targetRef r = r) (fun a => f.asset a = a) x → t.mapRefs f x = x
  | .scalar _, _, _, _, _ => rfl
  | .option t, x, ht, h, hr => by
    cases x with
    | none => rfl
    | some y => exact congrArg some (t.mapRefs_eq_self ht.2 (h.2 y rfl) (hr.2 y rfl))
  | .sequence _ t, _, ht, h, hr =>
    map_eq_self fun y hy => t.mapRefs_eq_self ht.2 (h.2 y hy) (hr.2 y hy)
  | .array t _, _, ht, h, hr =>
    Subtype.ext (map_eq_self fun y hy => t.mapRefs_eq_self ht.2 (h.2 y hy) (hr.2 y hy))
  -- what is sorted already is not sorted anew
  | .set _ t, xs, ht, h, hr => by
    have := t.cmp_lawful ht.1
    have hmap : List.map (t.mapRefs f) xs = xs :=
      map_eq_self fun y hy => t.mapRefs_eq_self ht.2 (h.2 y hy) (hr.2 y hy)
    exact (congrArg (keysOfList t.cmp) hmap).trans (keysOfList_eq_self h.1)
  | .map _ _ k v, es, ht, h, hr => by
    have := k.cmp_lawful ht.1
    have hmap : List.map (fun e => (k.mapRefs f e.1, v.mapRefs f e.2)) es = es :=
      map_eq_self fun e he => Prod.ext (k.mapRefs_eq_self ht.2.1 (h.2 e he).1 (hr.2 e he).1)
        (v.mapRefs_eq_self ht.2.2 (h.2 e he).2 (hr.2 e he).2)
    exact (congrArg (Entries.ofList k.cmp) hmap).trans (Entries.ofList_eq_self h.1)
  | .sheetRef _, _, _, _, hr => congrArg TargetRef.ref hr
  | .assetRef, _, _, _, hr => hr
  | .record _ ms, _, ht, h, hr => ms.mapRefs_eq_self ht.2 h.2 hr.2
  | .any, v, _, _, hr => Value.mapRefs_eq_self v hr

theorem MemberType.mapRefs_eq_self : (t : MemberType) → {x : t.El} →
    t.All CellType.HasStaticKeys (fun _ => True) →
    t.Every CellType.IsSorted (fun _ _ => True) x →
    t.EveryRef (fun r => f.targetRef r = r) (fun a => f.asset a = a) x → t.mapRefs f x = x
  | .cell t, _, ht, h, hr => t.mapRefs_eq_self ht.2 h.2 hr.2
  | .rows .list _ ms none, _, ht, h, hr =>
    map_eq_self fun y hy => ms.mapRefs_eq_self ht.2 (h.2 y hy) (hr.2 y hy)
  | .rows .boxedSlice _ ms none, _, ht, h, hr =>
    map_eq_self fun y hy => ms.mapRefs_eq_self ht.2 (h.2 y hy) (hr.2 y hy)
  | .rows (.array _) _ ms none, _, ht, h, hr =>
    Subtype.ext (map_eq_self fun y hy => ms.mapRefs_eq_self ht.2 (h.2 y hy) (hr.2 y hy))
  | .rows _ _ _ (some _), _, _, _, _ => rfl
  | .converted _, _, _, _, _ => rfl
  | .ignored _, _, _, _, _ => rfl

/-- Sorted members whose references stay are the same. -/
theorem Members.mapRefs_eq_self : (ms : Members) → {x : ms.El} → ms.StaticKeys → ms.Canonical x →
    ms.EveryRef (fun r => f.targetRef r = r) (fun a => f.asset a = a) x → ms.mapRefs f x = x
  | .nil, _, _, _, _ => rfl
  | .cons _ t rest, _, ht, h, hr =>
    Prod.ext (t.mapRefs_eq_self ht.1 h.1 hr.1) (rest.mapRefs_eq_self ht.2 h.2 hr.2)

end

theorem CellType.refsHere_of_forall {R : TargetRef → Prop} {A : AssetRef → Prop}
    (hR : ∀ r, R r) (hA : ∀ a, A a) (t : CellType) (x : t.El) : t.RefsHere R A x := by
  cases t with
  | sheetRef target => exact hR _
  | assetRef => exact hA _
  | any => exact Value.everyRef_of_forall hR hA _
  | _ => trivial

theorem CellType.mapRefs_id (t : CellType) {x : t.El} (ht : t.StaticKeys) (h : t.Canonical x) :
    t.mapRefs .id x = x :=
  t.mapRefs_eq_self ht h (t.every_of_all (fun t x _ =>
    t.refsHere_of_forall (fun _ => rfl) (fun _ => rfl) x) (fun _ _ _ => trivial) ht x)

theorem Members.mapRefs_id (ms : Members) {x : ms.El} (ht : ms.StaticKeys) (h : ms.Canonical x) :
    ms.mapRefs .id x = x :=
  ms.mapRefs_eq_self ht h (ms.every_of_all (fun t x _ =>
    t.refsHere_of_forall (fun _ => rfl) (fun _ => rfl) x) (fun _ _ _ => trivial) ht x)

end Same

end TypedSheets
