import TypedSheets.Proofs.Cell.Origin
import TypedSheets.Proofs.Link.Relinked

/-!
# References replaced where they stand

Sets and maps are put in order again after their references are replaced, and what has become equal
is kept once. As long as every reference keeps its key, and none was resolved before, the order is
the same and nothing becomes equal: each element stays in its place. So a row that is linked differs
from the row before in what its references are resolved to and in nothing else, sizes of collections
and keys of maps included.

An id that can be told without what references are resolved to stays as well, in every row whose
leaves read back faithfully.

## Main definitions

* `CellType.mapInPlace`, `Members.mapInPlace` — references replaced, every element in its place
* `Members.erased` — a row without what its references are resolved to
* `RefMap.KeepsOrder` — references that stay in their order
* `TableType.ResolutionFree` — ids that do not depend on what references are resolved to
* `Members.Faithful` — leaves that read back as they were, but for what references are resolved to

## Main results

* `CellType.mapInPlace_mapInPlace`, `CellType.cmp_mapInPlace` — replacing twice, and in order
* `TableType.ResolutionFree.resolutionBlind` — ids that stay where leaves read back faithfully
* `CellType.mapRefs_eq_mapInPlace` — replacing unresolved references leaves elements in their places
* `Members.erased_relinked` — linking a row changes nothing but what references are resolved to
-/

namespace TypedSheets

mutual

/-- A typed value with its references replaced and every element in its place. -/
def CellType.mapInPlace (f : RefMap) : (t : CellType) → t.El → t.El
  | .scalar _ => fun x => x
  | .option t => Option.map (t.mapInPlace f)
  | .sequence _ t => List.map (t.mapInPlace f)
  | .array t _ => fun xs => ⟨xs.val.map (t.mapInPlace f), by simp [xs.property]⟩
  | .set _ t => List.map (t.mapInPlace f)
  | .map _ _ k v => List.map fun e => (k.mapInPlace f e.1, v.mapInPlace f e.2)
  | .sheetRef target => f.row target
  | .assetRef => f.asset
  | .record _ ms => ms.mapInPlace f
  | .any => Value.mapRefs f

/-- The value of a member with its references replaced and every element in its place. -/
def MemberType.mapInPlace (f : RefMap) : (t : MemberType) → t.El → t.El
  | .cell t => t.mapInPlace f
  | .rows form _ ms _ => form.map (ms.mapInPlace f)
  | .converted _ => fun y => y
  | .ignored _ => fun y => y

/-- The values of members with their references replaced and every element in its place. -/
def Members.mapInPlace (f : RefMap) : (ms : Members) → ms.El → ms.El
  | .nil => fun x => x
  | .cons _ t rest => fun x => (t.mapInPlace f x.1, rest.mapInPlace f x.2)

end

/-! ### What references are resolved to -/

namespace RefMap

/-- No reference is resolved any more. -/
def forget : RefMap := ⟨fun _ r => { r with resolved := none }, fun a => { a with handle := none }⟩

theorem KeepsNames.forget_comp {f : RefMap} (hf : f.KeepsNames) : forget.comp f = forget := by
  simp only [comp, forget, hf.key, hf.path, hf.sub]

end RefMap

/-- References with these properties are in the same order after they are replaced. -/
structure RefMap.KeepsOrder (f : RefMap) (R : TargetRef → Prop) (A : AssetRef → Prop) : Prop where
  row : ∀ target r r', R ⟨target, r⟩ → R ⟨target, r'⟩ →
    (f.row target r).cmp (f.row target r') = r.cmp r'
  asset : ∀ a a', A a → A a' → (f.asset a).cmp (f.asset a') = a.cmp a'

/-- No reference in a typed value is resolved. -/
def CellType.Unresolved (t : CellType) (x : t.El) : Prop :=
  t.EveryRef TargetRef.IsUnresolved AssetRef.IsUnresolved x

/-- No reference in the value of a member is resolved. -/
def MemberType.Unresolved (t : MemberType) (x : t.El) : Prop :=
  t.EveryRef TargetRef.IsUnresolved AssetRef.IsUnresolved x

/-- No reference in the values of members is resolved. -/
def Members.Unresolved (ms : Members) (x : ms.El) : Prop :=
  ms.EveryRef TargetRef.IsUnresolved AssetRef.IsUnresolved x

/-- A row without what its references are resolved to. -/
def Members.erased (ms : Members) (x : ms.El) : ms.El := ms.mapInPlace .forget x

/-- The id of a row can be told without what its references are resolved to. -/
def TableType.ResolutionFree (t : TableType) : Prop :=
  ∀ x y : t.Row, t.record.members.erased x = t.record.members.erased y → t.getId x = t.getId y

/-! ### One replacement after another -/

section Twice

/-- Functions in a row, of which the second makes of the first one what a third does. -/
theorem map_map_of_forall {α β γ : Type} {g : α → β} {h : β → γ} {k : α → γ} {xs : List α}
    (hgh : ∀ x ∈ xs, h (g x) = k x) : (xs.map g).map h = xs.map k := by
  rw [List.map_map]
  exact List.map_congr_left hgh

theorem RowsForm.map_map_of_forall {α β γ : Type} {g : α → β} {h : β → γ} {k : α → γ}
    {form : RowsForm} {xs : form.Holder α} (hgh : ∀ x ∈ form.items xs, h (g x) = k x) :
    form.map h (form.map g xs) = form.map k xs := by
  apply RowsForm.eq_of_items
  rw [RowsForm.items_map, RowsForm.items_map, RowsForm.items_map]
  exact TypedSheets.map_map_of_forall hgh

mutual

/-- Two replacements in a row are one. -/
theorem CellType.mapInPlace_mapInPlace (g f : RefMap) : (t : CellType) → (x : t.El) →
    t.mapInPlace g (t.mapInPlace f x) = t.mapInPlace (g.comp f) x
  | .scalar _, _ => rfl
  | .option _, none => rfl
  | .option t, some y => congrArg some (t.mapInPlace_mapInPlace g f y)
  | .sequence _ t, _ => map_map_of_forall fun y _ => t.mapInPlace_mapInPlace g f y
  | .array t _, _ => Subtype.ext (map_map_of_forall fun y _ => t.mapInPlace_mapInPlace g f y)
  | .set _ t, _ => map_map_of_forall fun y _ => t.mapInPlace_mapInPlace g f y
  | .map _ _ k v, _ => map_map_of_forall fun e _ =>
    Prod.ext (k.mapInPlace_mapInPlace g f e.1) (v.mapInPlace_mapInPlace g f e.2)
  | .sheetRef _, _ => rfl
  | .assetRef, _ => rfl
  | .record _ ms, x => ms.mapInPlace_mapInPlace g f x
  | .any, v => Value.mapRefs_mapRefs g f v

theorem MemberType.mapInPlace_mapInPlace (g f : RefMap) : (t : MemberType) → (x : t.El) →
    t.mapInPlace g (t.mapInPlace f x) = t.mapInPlace (g.comp f) x
  | .cell t, x => t.mapInPlace_mapInPlace g f x
  | .rows _ _ ms _, _ => RowsForm.map_map_of_forall fun y _ => ms.mapInPlace_mapInPlace g f y
  | .converted _, _ => rfl
  | .ignored _, _ => rfl

theorem Members.mapInPlace_mapInPlace (g f : RefMap) : (ms : Members) → (x : ms.El) →
    ms.mapInPlace g (ms.mapInPlace f x) = ms.mapInPlace (g.comp f) x
  | .nil, _ => rfl
  | .cons _ t rest, x =>
    Prod.ext (t.mapInPlace_mapInPlace g f x.1) (rest.mapInPlace_mapInPlace g f x.2)

end

/-- What was replaced is forgotten with the rest. -/
theorem CellType.mapInPlace_forget {f : RefMap} (hf : f.KeepsNames) (t : CellType) (x : t.El) :
    t.mapInPlace .forget (t.mapInPlace f x) = t.mapInPlace .forget x := by
  rw [t.mapInPlace_mapInPlace, hf.forget_comp]

end Twice

/-! ### Replacing nothing -/

section Same

variable {f : RefMap}

mutual

/-- A value whose references stay is the same. -/
theorem CellType.mapInPlace_eq_self : (t : CellType) → {x : t.El} →
    t.EveryRef (fun r => f.targetRef r = r) (fun a => f.asset a = a) x → t.mapInPlace f x = x
  | .scalar _, _, _ => rfl
  | .option t, x, h => by
    cases x with
    | none => rfl
    | some y => exact congrArg some (t.mapInPlace_eq_self (h.2 y rfl))
  | .sequence _ t, _, h => map_eq_self fun y hy => t.mapInPlace_eq_self (h.2 y hy)
  | .array t _, _, h => Subtype.ext (map_eq_self fun y hy => t.mapInPlace_eq_self (h.2 y hy))
  | .set _ t, _, h => map_eq_self fun y hy => t.mapInPlace_eq_self (h.2 y hy)
  | .map _ _ k v, _, h => map_eq_self fun e he =>
    Prod.ext (k.mapInPlace_eq_self (h.2 e he).1) (v.mapInPlace_eq_self (h.2 e he).2)
  | .sheetRef _, _, h => congrArg TargetRef.ref h
  | .assetRef, _, h => h
  | .record _ ms, _, h => ms.mapInPlace_eq_self h.2
  | .any, v, h => Value.mapRefs_eq_self v h

theorem MemberType.mapInPlace_eq_self : (t : MemberType) → {x : t.El} →
    t.EveryRef (fun r => f.targetRef r = r) (fun a => f.asset a = a) x → t.mapInPlace f x = x
  | .cell t, _, h => t.mapInPlace_eq_self h.2
  | .rows _ _ ms _, _, h => RowsForm.map_eq_self fun y hy => ms.mapInPlace_eq_self (h.2 y hy)
  | .converted _, _, _ => rfl
  | .ignored _, _, _ => rfl

theorem Members.mapInPlace_eq_self : (ms : Members) → {x : ms.El} →
    ms.EveryRef (fun r => f.targetRef r = r) (fun a => f.asset a = a) x → ms.mapInPlace f x = x
  | .nil, _, _ => rfl
  | .cons _ t rest, _, h => Prod.ext (t.mapInPlace_eq_self h.1) (rest.mapInPlace_eq_self h.2)

end

end Same

/-! ### Ids -/

section Plain

theorem CellType.agreePlain_of_forget {t : CellType} {x y : t.El}
    (h : t.mapInPlace .forget x = t.mapInPlace .forget y) : t.AgreePlain x y := by
  cases t with
  | sheetRef target =>
    have href : RefMap.forget.row target x = RefMap.forget.row target y := h
    exact (SheetRef.mk.inj href).1
  | assetRef =>
    have hasset : RefMap.forget.asset x = RefMap.forget.asset y := h
    exact ⟨(AssetRef.mk.inj hasset).1, (AssetRef.mk.inj hasset).2.1⟩
  | _ =>
    -- a type that may hold references promises nothing about its values
    intro hfree
    rwa [CellType.mapInPlace_eq_self _ (CellType.everyRef_of_refFree _ _ hfree x),
      CellType.mapInPlace_eq_self _ (CellType.everyRef_of_refFree _ _ hfree y)] at h

/-- Rows that differ in what references are resolved to and in nothing else agree in their plain
members. -/
theorem Members.agreePlain_of_erased : (ms : Members) → {x y : ms.El} →
    ms.erased x = ms.erased y → ms.AgreePlain x y
  | .nil, _, _, _ => trivial
  | .cons _ t rest, x, y, h => by
    obtain ⟨hfirst, hothers⟩ := Prod.mk.inj h
    refine ⟨?_, rest.agreePlain_of_erased hothers⟩
    cases t with
    | cell t => exact CellType.agreePlain_of_forget hfirst
    | rows form head ms via =>
      intro hfree
      have hall : (MemberType.rows form head ms via).All CellType.IsRefFree (fun _ => True) :=
        ⟨trivial, hfree⟩
      have hsame : ∀ xs, (MemberType.rows form head ms via).mapInPlace .forget xs = xs := fun xs =>
        MemberType.mapInPlace_eq_self _ (MemberType.everyRef_of_refFree _ _ hall xs)
      exact (hsame x.1).symm.trans (hfirst.trans (hsame y.1))
    | converted c => exact hfirst
    | ignored d => exact hfirst

/-- An id that is told by the plain members of a row does not need what references are resolved
to. -/
theorem TableType.PlainId.resolutionFree {t : TableType} (h : t.PlainId) : t.ResolutionFree :=
  fun x y hxy => h x y (t.record.members.agreePlain_of_erased hxy)

end Plain

/-! ### Leaves that read back faithfully -/

section Faithful

theorem RowsForm.map_eq_map_of_forall₂ {α β : Type} {form : RowsForm} {f : α → β}
    {xs ys : form.Holder α}
    (h : List.Forall₂ (fun x y => f x = f y) (form.items xs) (form.items ys)) :
    form.map f xs = form.map f ys := by
  refine eq_of_items ?_
  rwa [items_map, items_map, ← List.forall₂_eq_eq_eq, List.forall₂_map_left_iff,
    List.forall₂_map_right_iff]

/-- A value reads back from the value it prints to as itself, but for what references are resolved
to. -/
def CellType.Faithful (t : CellType) : Prop :=
  ∀ x y f, f.KeepsNames → t.read .pascal ((t.print .pascal x).mapRefs f) = .ok y →
    t.mapInPlace .forget x = t.mapInPlace .forget y

mutual

/-- The leaves of a member that may hold references read back faithfully. -/
def MemberType.Faithful : MemberType → Prop
  | .cell t => t.RefFree ∨ t.Faithful
  | .rows _ _ ms _ => ms.Faithful
  | .converted _ => True
  | .ignored _ => True

/-- The leaves of a row that may hold references read back faithfully. -/
def Members.Faithful : Members → Prop
  | .nil => True
  | .cons _ t rest => t.Faithful ∧ rest.Faithful

end

mutual

theorem MemberType.mapInPlace_of_resolvedAs : (t : MemberType) → t.Faithful → {x y : t.El} →
    t.ResolvedAs x y → t.mapInPlace .forget x = t.mapInPlace .forget y
  | .cell t, hfaithful, x, y, h => by
    rcases h with rfl | ⟨hrefs, f, hf, hread⟩
    · rfl
    · rcases hfaithful with hfree | hfaithful
      · exact absurd (CellType.everyRef_print_of_refFree _ _ hfree .pascal x) hrefs
      · exact hfaithful x y f hf hread
  | .rows _ _ ms _, hfaithful, _, _, h =>
    RowsForm.map_eq_map_of_forall₂ (h.imp fun _ _ => ms.mapInPlace_of_resolvedAs hfaithful)
  | .converted _, _, _, _, h => h
  | .ignored _, _, _, _, h => h

theorem Members.mapInPlace_of_resolvedAs : (ms : Members) → ms.Faithful → {x y : ms.El} →
    ms.ResolvedAs x y → ms.mapInPlace .forget x = ms.mapInPlace .forget y
  | .nil, _, _, _, _ => rfl
  | .cons _ t rest, hfaithful, _, _, h =>
    Prod.ext (t.mapInPlace_of_resolvedAs hfaithful.1 h.1)
      (rest.mapInPlace_of_resolvedAs hfaithful.2 h.2)

end

/-- Where leaves read back faithfully, an id that can be told without what references are resolved
to stays. -/
theorem TableType.ResolutionFree.resolutionBlind {t : TableType} (h : t.ResolutionFree)
    (hms : t.record.members.Faithful) : t.ResolutionBlind :=
  fun x y hxy => h x y (t.record.members.mapInPlace_of_resolvedAs hms hxy)

end Faithful

/-! ### The order of keys -/

section Order

/-- References to rows with different keys are told apart by these alone. -/
theorem SheetRef.cmp_of_key_ne {a b : SheetRef} (h : a.key ≠ b.key) :
    a.cmp b = compare a.key b.key := by
  have hne : compare a.key b.key ≠ .eq := fun heq => h (compareText_eq_iff.mp heq)
  rw [SheetRef.cmp]
  cases hc : compare a.key b.key with
  | eq => exact absurd hc hne
  | lt => rfl
  | gt => rfl

/-- The order of assets by path and item. -/
def AssetRef.cmpNames (a b : AssetRef) : Ordering :=
  cmpPair compareText (cmpOption compareText) (a.path, a.sub) (b.path, b.sub)

/-- References to different assets are told apart by path and item alone. -/
theorem AssetRef.cmp_of_names_ne {a b : AssetRef} (h : ¬ (a.path = b.path ∧ a.sub = b.sub)) :
    a.cmp b = a.cmpNames b := by
  have hne : a.cmpNames b ≠ .eq := fun heq =>
    h (Prod.mk.inj ((LawfulOrder.text.pair LawfulOrder.text.option).eq_of_compare heq))
  obtain ⟨p, s, x⟩ := a
  obtain ⟨p', s', x'⟩ := b
  -- handles are compared last, and only if path and item are the same
  simp only [AssetRef.cmpNames, cmpPair, AssetRef.cmp, compareText] at hne ⊢
  cases hp : compare p p' with
  | lt => rfl
  | gt => rfl
  | eq =>
    rw [hp] at hne
    cases s with
    | none => cases s' <;> first | rfl | exact absurd rfl hne
    | some s =>
      cases s' with
      | none => rfl
      | some s' =>
        have hsub : compare s s' ≠ .eq := hne
        cases hs : compare s s' with
        | lt =>
          simp only [cmpOption, compareText, hs]
          rfl
        | gt =>
          simp only [cmpOption, compareText, hs]
          rfl
        | eq => exact absurd hs hsub

theorem cmpList_map_of_forall {α β : Type} {cmp : α → α → Ordering} {cmp' : β → β → Ordering}
    {g : α → β} : {xs ys : List α} →
    (∀ x ∈ xs, ∀ y ∈ ys, cmp' (g x) (g y) = cmp x y) →
    cmpList cmp' (xs.map g) (ys.map g) = cmpList cmp xs ys
  | [], [], _ => rfl
  | [], _ :: _, _ => rfl
  | _ :: _, [], _ => rfl
  | x :: xs, y :: ys, h => by
    have hfirst : cmp' (g x) (g y) = cmp x y := h x List.mem_cons_self y List.mem_cons_self
    have hothers : cmpList cmp' (xs.map g) (ys.map g) = cmpList cmp xs ys :=
      cmpList_map_of_forall fun a ha b hb =>
        h a (List.mem_cons_of_mem x ha) b (List.mem_cons_of_mem y hb)
    rw [List.map_cons, List.map_cons, cmpList, cmpList, hfirst, hothers]

theorem RowsForm.cmpList_map_of_forall {α β : Type} {cmp : α → α → Ordering}
    {cmp' : β → β → Ordering} {g : α → β} {form : RowsForm} {xs ys : form.Holder α}
    (h : ∀ x ∈ form.items xs, ∀ y ∈ form.items ys, cmp' (g x) (g y) = cmp x y) :
    cmpList cmp' (form.items (form.map g xs)) (form.items (form.map g ys)) =
      cmpList cmp (form.items xs) (form.items ys) := by
  rw [RowsForm.items_map, RowsForm.items_map]
  exact TypedSheets.cmpList_map_of_forall h

variable {f : RefMap} {R : TargetRef → Prop} {A : AssetRef → Prop}

theorem RefMap.KeepsNames.cmp_row (hf : f.KeepsNames) (target : String) {r r' : SheetRef}
    (h : r.resolved = none) (h' : r'.resolved = none) :
    (f.row target r).cmp (f.row target r') = r.cmp r' := by
  have hlawful := SheetRef.cmp_lawful
  by_cases heq : r = r'
  · subst heq
    exact hlawful.compare_self.trans hlawful.compare_self.symm
  · -- unresolved references that differ have different keys
    have hkey : r.key ≠ r'.key := by
      intro hkey
      obtain ⟨k, x⟩ := r
      obtain ⟨k', x'⟩ := r'
      simp_all
    have hkeys : (f.row target r).key ≠ (f.row target r').key := by
      rwa [hf.key, hf.key]
    rw [SheetRef.cmp_of_key_ne hkeys, SheetRef.cmp_of_key_ne hkey, hf.key, hf.key]

theorem RefMap.KeepsNames.cmp_asset (hf : f.KeepsNames) {a a' : AssetRef} (h : a.IsUnresolved)
    (h' : a'.IsUnresolved) : (f.asset a).cmp (f.asset a') = a.cmp a' := by
  have hlawful := AssetRef.cmp_lawful
  by_cases heq : a = a'
  · subst heq
    exact hlawful.compare_self.trans hlawful.compare_self.symm
  · -- unresolved references that differ have different paths or items
    have hname : ¬ (a.path = a'.path ∧ a.sub = a'.sub) := by
      rintro ⟨hpath, hsub⟩
      obtain ⟨p, s, x⟩ := a
      obtain ⟨p', s', x'⟩ := a'
      simp_all [AssetRef.IsUnresolved]
    have hnames : ¬ ((f.asset a).path = (f.asset a').path ∧
        (f.asset a).sub = (f.asset a').sub) := by
      rwa [hf.path, hf.path, hf.sub, hf.sub]
    rw [AssetRef.cmp_of_names_ne hnames, AssetRef.cmp_of_names_ne hname, AssetRef.cmpNames, hf.path,
      hf.path, hf.sub, hf.sub]
    rfl

/-- Unresolved references keep their order as long as they go on to name the same. -/
theorem RefMap.KeepsNames.keepsOrder (hf : f.KeepsNames) :
    f.KeepsOrder TargetRef.IsUnresolved AssetRef.IsUnresolved :=
  ⟨fun target _ _ h h' => hf.cmp_row target h h', fun _ _ h h' => hf.cmp_asset h h'⟩

mutual

/-- Replacing references that keep their order keeps the order of values. -/
theorem CellType.cmp_mapInPlace (hf : f.KeepsOrder R A) : (t : CellType) → {x y : t.El} →
    t.EveryRef R A x → t.EveryRef R A y →
    t.cmp (t.mapInPlace f x) (t.mapInPlace f y) = t.cmp x y
  | .scalar _, _, _, _, _ => rfl
  | .option t, x, y, hx, hy => by
    cases x with
    | none => cases y <;> rfl
    | some x =>
      cases y with
      | none => rfl
      | some y => exact t.cmp_mapInPlace hf (hx.2 x rfl) (hy.2 y rfl)
  -- collections are compared element by element, maps by their entries
  | .sequence _ t, _, _, hx, hy =>
    cmpList_map_of_forall fun a ha b hb => t.cmp_mapInPlace hf (hx.2 a ha) (hy.2 b hb)
  | .array t _, _, _, hx, hy =>
    cmpList_map_of_forall fun a ha b hb => t.cmp_mapInPlace hf (hx.2 a ha) (hy.2 b hb)
  | .set _ t, _, _, hx, hy =>
    cmpList_map_of_forall fun a ha b hb => t.cmp_mapInPlace hf (hx.2 a ha) (hy.2 b hb)
  | .map _ _ k v, _, _, hx, hy =>
    cmpList_map_of_forall fun a ha b hb =>
      congrArg₂ Ordering.then (k.cmp_mapInPlace hf (hx.2 a ha).1 (hy.2 b hb).1)
        (v.cmp_mapInPlace hf (hx.2 a ha).2 (hy.2 b hb).2)
  | .sheetRef target, r, r', hx, hy => hf.row target r r' hx hy
  | .assetRef, a, a', hx, hy => hf.asset a a' hx hy
  | .record _ ms, _, _, hx, hy => ms.cmp_mapInPlace hf hx.2 hy.2
  | .any, _, _, _, _ => rfl

theorem MemberType.cmp_mapInPlace (hf : f.KeepsOrder R A) : (t : MemberType) → {x y : t.El} →
    t.EveryRef R A x → t.EveryRef R A y →
    t.cmp (t.mapInPlace f x) (t.mapInPlace f y) = t.cmp x y
  | .cell t, _, _, hx, hy => t.cmp_mapInPlace hf hx.2 hy.2
  | .rows _ _ ms _, _, _, hx, hy => RowsForm.cmpList_map_of_forall fun a ha b hb =>
    ms.cmp_mapInPlace hf (hx.2 a ha) (hy.2 b hb)
  | .converted _, _, _, _, _ => rfl
  | .ignored _, _, _, _, _ => rfl

theorem Members.cmp_mapInPlace (hf : f.KeepsOrder R A) : (ms : Members) → {x y : ms.El} →
    ms.EveryRef R A x → ms.EveryRef R A y →
    ms.cmp (ms.mapInPlace f x) (ms.mapInPlace f y) = ms.cmp x y
  | .nil, _, _, _, _ => rfl
  | .cons _ t rest, _, _, hx, hy =>
    congrArg₂ Ordering.then (t.cmp_mapInPlace hf hx.1 hy.1) (rest.cmp_mapInPlace hf hx.2 hy.2)

end

end Order

/-! ### Elements in their places -/

section Places

variable {f : RefMap}

mutual

/-- In a sorted value without resolved references, every element is in its place after references
are replaced. -/
theorem CellType.mapRefs_eq_mapInPlace (hf : f.KeepsNames) : (t : CellType) → t.StaticKeys →
    t.PlainRows → {x : t.El} → t.Canonical x → t.Unresolved x →
    t.mapRefs f x = t.mapInPlace f x
  | .scalar _, _, _, _, _, _ => rfl
  | .option t, ht, hp, x, h, hx => by
    cases x with
    | none => rfl
    | some y => exact congrArg some (t.mapRefs_eq_mapInPlace hf ht.2 hp.2 (h.2 y rfl) (hx.2 y rfl))
  | .sequence _ t, ht, hp, _, h, hx => List.map_congr_left fun y hy =>
    t.mapRefs_eq_mapInPlace hf ht.2 hp.2 (h.2 y hy) (hx.2 y hy)
  | .array t _, ht, hp, _, h, hx => Subtype.ext (List.map_congr_left fun y hy =>
    t.mapRefs_eq_mapInPlace hf ht.2 hp.2 (h.2 y hy) (hx.2 y hy))
  | .set _ t, ht, hp, xs, h, hx => by
    have hmap : List.map (t.mapRefs f) xs = List.map (t.mapInPlace f) xs :=
      List.map_congr_left fun y hy => t.mapRefs_eq_mapInPlace hf ht.2 hp.2 (h.2 y hy) (hx.2 y hy)
    have hcmp := t.cmp_lawful ht.1
    -- the elements keep their order, so sorting them again changes nothing
    have hsorted : keysOfList t.cmp (List.map (t.mapInPlace f) xs) = List.map (t.mapInPlace f) xs :=
      (keysOfList_map fun y hy z hz => t.cmp_mapInPlace hf.keepsOrder (hx.2 y hy) (hx.2 z hz)).trans
        (congrArg (List.map (t.mapInPlace f)) (keysOfList_eq_self h.1))
    exact (congrArg (keysOfList t.cmp) hmap).trans hsorted
  | .map _ _ k v, ht, hp, es, h, hx => by
    have hmap : List.map (fun e => (k.mapRefs f e.1, v.mapRefs f e.2)) es =
        List.map (fun e => (k.mapInPlace f e.1, v.mapInPlace f e.2)) es :=
      List.map_congr_left fun e he =>
        Prod.ext (k.mapRefs_eq_mapInPlace hf ht.2.1 hp.2.1 (h.2 e he).1 (hx.2 e he).1)
          (v.mapRefs_eq_mapInPlace hf ht.2.2 hp.2.2 (h.2 e he).2 (hx.2 e he).2)
    have hcmp := k.cmp_lawful ht.1
    have hkeys : ∀ a ∈ es.map Prod.fst, k.Unresolved a :=
      List.forall_mem_map.mpr fun e he => (hx.2 e he).1
    -- the order of entries is that of their keys, so values need not keep theirs
    have hsorted : Entries.ofList k.cmp
        (List.map (fun e => (k.mapInPlace f e.1, v.mapInPlace f e.2)) es) =
          List.map (fun e => (k.mapInPlace f e.1, v.mapInPlace f e.2)) (Entries.ofList k.cmp es) :=
      Entries.ofList_map fun a ha b hb =>
        k.cmp_mapInPlace hf.keepsOrder (hkeys a ha) (hkeys b hb)
    rw [Entries.ofList_eq_self h.1] at hsorted
    exact (congrArg (Entries.ofList k.cmp) hmap).trans hsorted
  | .sheetRef _, _, _, _, _, _ => rfl
  | .assetRef, _, _, _, _, _ => rfl
  | .record _ ms, ht, hp, _, h, hx => ms.mapRefs_eq_mapInPlace hf ht.2 hp.2 h.2 hx.2
  | .any, _, _, _, _, _ => rfl

theorem MemberType.mapRefs_eq_mapInPlace (hf : f.KeepsNames) : (t : MemberType) →
    t.All CellType.HasStaticKeys (fun _ => True) → t.All (fun _ => True) MemberType.HasPlainRows →
    {x : t.El} → t.Every CellType.IsSorted (fun _ _ => True) x →
    t.Unresolved x → t.mapRefs f x = t.mapInPlace f x
  | .cell t, ht, hp, _, h, hx => t.mapRefs_eq_mapInPlace hf ht.2 hp.2 h.2 hx.2
  | .rows _ _ ms none, ht, hp, _, h, hx => RowsForm.map_congr fun y hy =>
    ms.mapRefs_eq_mapInPlace hf ht.2 hp.2 (h.2 y hy) (hx.2 y hy)
  | .rows _ _ _ (some _), _, hp, _, _, _ => nomatch hp.1
  | .converted _, _, _, _, _, _ => rfl
  | .ignored _, _, _, _, _, _ => rfl

/-- The same for the members of a row. -/
theorem Members.mapRefs_eq_mapInPlace (hf : f.KeepsNames) : (ms : Members) → ms.StaticKeys →
    ms.PlainRows → {x : ms.El} → ms.Canonical x → ms.Unresolved x →
    ms.mapRefs f x = ms.mapInPlace f x
  | .nil, _, _, _, _, _ => rfl
  | .cons _ t rest, ht, hp, _, h, hx =>
    Prod.ext (t.mapRefs_eq_mapInPlace hf ht.1 hp.1 h.1 hx.1)
      (rest.mapRefs_eq_mapInPlace hf ht.2 hp.2 h.2 hx.2)

end

end Places

/-! ### Linked rows -/

section Linked

variable (l : Linker)

/-- The references in a row made of JSON are unresolved. -/
theorem Members.unresolved_of_read {ms : Members} {n : Naming} {j : Json} {raw : RawRow}
    {x : ms.El} (hraw : RawRow.ofJson j = .ok raw) (h : ms.read n raw = .ok x) :
    ms.Unresolved x :=
  Members.everyRef_of_read (fun _ _ => rfl) (fun _ _ => rfl) (Value.everyRef_cell_ofJson hraw) h

/-- A cell without resolved references is rewritten with every element in its place. -/
theorem CellType.rewrite_eq_mapInPlace {t : CellType} (hkeys : t.StaticKeys) (hr : t.Reverting)
    (hd : t.DistinctColumns) (hp : t.PlainRows) (n' : Naming) {n : Naming} {v : Value} {x : t.El}
    (h : t.read n v = .ok x) (hx : t.Unresolved x) :
    l.rewrite (t.print n') (t.read n') x = t.mapInPlace l.refMap x := by
  rw [CellType.rewrite_eq_mapRefs l hkeys hr hd n' h]
  exact t.mapRefs_eq_mapInPlace l.keepsNames_refMap hkeys hp (CellType.canonical_of_read hkeys h)
    hx

mutual

/-- Linking a member changes nothing but what references are resolved to, whether the member is
linked or left out. -/
theorem MemberType.erased_relinked (d : RecordDecl) (info : MemberInfo) : (t : MemberType) →
    {name : String} → {n : Naming} → {row : RawRow} → {x : t.El} →
    t.All CellType.HasStaticKeys (fun _ => True) → t.All (fun _ => True) MemberType.Reverts →
    t.All CellType.HasDistinctColumns MemberType.HasDistinctColumns →
    t.All (fun _ => True) MemberType.HasPlainRows → t.read name n row = .ok x → t.Unresolved x →
    t.mapInPlace .forget (t.relinked l d info x) = t.mapInPlace .forget x
  | .cell t, _, _, _, x, hkeys, hr, hd, hp, h, hx => by
    simp only [MemberType.relinked, MemberType.mapInPlace]
    split
    · have hplace := CellType.rewrite_eq_mapInPlace l hkeys.2 hr.2 hd.2 hp.2 .pascal
        (mapError_eq_ok_iff.mp h) hx.2
      exact (congrArg (t.mapInPlace .forget) hplace).trans
        (t.mapInPlace_forget l.keepsNames_refMap x)
    · rfl
  | .rows _ _ _ (some _), _, _, _, _, _, _, _, hp, _, _ => nomatch hp.1
  | .rows form head ms none, _, _, _, _, hkeys, hr, hd, hp, h, hx => by
    refine RowsForm.map_map_of_forall fun y hy => ?_
    obtain ⟨_, _, hread⟩ := form.exists_of_mem_read (mapError_eq_ok_iff.mp h) hy
    obtain ⟨_, _, hread⟩ := Value.partClosed_true.of_readRecord trivial hread
    exact ms.erased_relinked (head.decl ms) hkeys.2 hr.2 hd.2 hp.2 hread (hx.2 y hy)
  | .converted _, _, _, _, _, _, _, _, _, _, _ => rfl
  | .ignored _, _, _, _, _, _, _, _, _, _, _ => rfl

/-- Linking a row changes nothing but what references are resolved to. -/
theorem Members.erased_relinked (d : RecordDecl) : (ms : Members) → {n : Naming} →
    {row : RawRow} → {x : ms.El} → ms.StaticKeys → ms.Reverting →
    ms.All CellType.HasDistinctColumns MemberType.HasDistinctColumns → ms.PlainRows →
    ms.read n row = .ok x → ms.Unresolved x →
    ms.erased (ms.relinked l d x) = ms.erased x
  | .nil, _, _, _, _, _, _, _, _, _ => rfl
  | .cons info t rest, _, _, _, hkeys, hr, hd, hp, h, hx => by
    obtain ⟨hfirst, hothers⟩ := Members.read_cons_eq_ok h
    exact Prod.ext (t.erased_relinked d info hkeys.1 hr.1 hd.1 hp.1 hfirst hx.1)
      (rest.erased_relinked d hkeys.2 hr.2 hd.2 hp.2 hothers hx.2)

end

end Linked

end TypedSheets
