import Mathlib.Tactic.SplitIfs
import TypedSheets.Cell.Print
import TypedSheets.Game.Catalog
import TypedSheets.Proofs.Cell.Parts

/-!
# Members that may hold references

Whether a member may hold references is told from its declared type alone, from what the type says
about elements and keys. It is told right: where the answer is no, the member prints to truth
values, numbers and texts, and to lists and maps of such, at any depth. Only a record that is named
like a primitive type is mistaken for it.

## Main definitions

* `CellType.Spelled` — a declared type stands for a cell type
* `CellType.Primitive`, `Value.Primitive` — neither references nor records, at any depth
* `Value.Within` — a value stands in another one

## Main results

* `CellType.spelled_shape`, `CellType.spelled_of_ofShape?` — what declared types stand for
* `FieldDescriptor.parts_of_describe` — what a description without references says about the parts
* `CellType.Spelled.primitive_of_describe` — a type that is described without references has none
* `CellType.refFree_of_field` — the same for the description of a member
* `CellType.primitive_print_of_field` — and for what the values of the member print to
-/

namespace TypedSheets

/-! ### What declared types stand for -/

/-- A declared type stands for a cell type. Paths are known by their last segments, an array may
have any text for its length, and names of record types stand for the types that `records` tells. -/
inductive CellType.Spelled (records : String → RecordType → Prop) : TypeShape → CellType → Prop
  | scalar {segments : List String} {name : String} {s : ScalarType}
      (hname : segments.getLast? = some name) (hs : ScalarType.ofName? name = some s) :
      Spelled records (.path segments []) (.scalar s)
  | assetRef {segments : List String} (hname : segments.getLast? = some "AssetRef") :
      Spelled records (.path segments []) .assetRef
  | dynamic {segments : List String} (hname : segments.getLast? = some "Value") :
      Spelled records (.path segments []) .any
  | record {segments : List String} {name : String} {r : RecordType}
      (hname : segments.getLast? = some name) (hr : records name r) :
      Spelled records (.path segments []) r.cell
  | sheetRef {segments : List String} (a : TypeShape) (target : String)
      (hname : segments.getLast? = some "SheetRef") :
      Spelled records (.path segments [a]) (.sheetRef target)
  | wrapped {segments : List String} {name : String} {a : TypeShape} {t : CellType}
      {wrap : CellType → CellType} (hname : segments.getLast? = some name)
      (hwrap : wrapper? name = some wrap) (ht : Spelled records a t) :
      Spelled records (.path segments [a]) (wrap t)
  | boxedSlice {segments : List String} {e : TypeShape} {t : CellType}
      (hname : segments.getLast? = some "Box") (ht : Spelled records e t) :
      Spelled records (.path segments [.slice e]) (.sequence .boxedSlice t)
  | sharedSlice {segments : List String} {e : TypeShape} {t : CellType}
      (hname : segments.getLast? = some "Arc") (ht : Spelled records e t) :
      Spelled records (.path segments [.slice e]) (.sequence .sharedSlice t)
  | sharedList {segments inner : List String} {e : TypeShape} {t : CellType}
      (hname : segments.getLast? = some "Arc") (hinner : inner.getLast? = some "Vec")
      (ht : Spelled records e t) :
      Spelled records (.path segments [.path inner [e]]) (.sequence .sharedList t)
  | map {segments : List String} {name : String} {form : KeyedForm} {a b : TypeShape}
      {k v : CellType} (hname : segments.getLast? = some name)
      (hform : KeyedForm.ofMapName? name = some form) (hk : Spelled records a k)
      (hv : Spelled records b v) : Spelled records (.path segments [a, b]) (.map form false k v)
  | sharedMap {segments inner : List String} {name : String} {form : KeyedForm} {a b : TypeShape}
      {k v : CellType} (hname : segments.getLast? = some "Arc")
      (hinner : inner.getLast? = some name) (hform : KeyedForm.ofMapName? name = some form)
      (hk : Spelled records a k) (hv : Spelled records b v) :
      Spelled records (.path segments [.path inner [a, b]]) (.map form true k v)
  | array {e : TypeShape} {t : CellType} (length : String) (n : Nat) (ht : Spelled records e t) :
      Spelled records (.array e length) (.array t n)

/-- A scalar, a sequence, a set or a map, but no reference, record or dynamic value. -/
def CellType.IsPrimitive : CellType → Prop
  | .sheetRef _ => False
  | .assetRef => False
  | .record _ _ => False
  | .any => False
  | _ => True

/-- There is neither a reference nor a record in a type, and no dynamic value. -/
def CellType.Primitive (t : CellType) : Prop := t.All IsPrimitive fun _ => True

instance : DecidablePred CellType.IsPrimitive
  | .sheetRef _ | .assetRef | .record _ _ | .any => .isFalse id
  | .scalar _ | .option _ | .sequence _ _ | .array _ _ | .set _ _ | .map _ _ _ _ => .isTrue trivial

instance (t : CellType) : Decidable t.Primitive := inferInstanceAs (Decidable (t.All _ _))

/-- What there is neither a reference nor a record in holds no references. -/
theorem CellType.Primitive.refFree : {t : CellType} → t.Primitive → t.RefFree
  | .scalar _, _ => trivial
  | .option t, h => ⟨trivial, refFree (t := t) h.2⟩
  | .sequence _ t, h => ⟨trivial, refFree (t := t) h.2⟩
  | .array t _, h => ⟨trivial, refFree (t := t) h.2⟩
  | .set _ t, h => ⟨trivial, refFree (t := t) h.2⟩
  | .map _ _ k v, h => ⟨trivial, refFree (t := k) h.2.1, refFree (t := v) h.2.2⟩
  | .sheetRef _, h => h.elim
  | .assetRef, h => h.elim
  | .record _ _, h => h.1.elim
  | .any, h => h.elim

/-- The forms with one argument. -/
theorem CellType.wrapper?_cases {name : String} {wrap : CellType → CellType}
    (h : wrapper? name = some wrap) : name = "Option" ∧ wrap = .option ∨
      (∃ form, name ∈ ["Vec", "VecDeque", "Stack"] ∧ wrap = .sequence form) ∨
      ∃ form, name ∈ ["HashSet", "BTreeSet"] ∧ wrap = .set form := by
  rw [wrapper?] at h
  split_ifs at h with hoption hlist hqueue hstack hhashed hsorted <;> cases h
  · exact Or.inl ⟨beq_iff_eq.mp hoption, rfl⟩
  · exact Or.inr (Or.inl ⟨_, by simp [beq_iff_eq.mp hlist], rfl⟩)
  · exact Or.inr (Or.inl ⟨_, by simp [beq_iff_eq.mp hqueue], rfl⟩)
  · exact Or.inr (Or.inl ⟨_, by simp [beq_iff_eq.mp hstack], rfl⟩)
  · exact Or.inr (Or.inr ⟨_, by simp [beq_iff_eq.mp hhashed], rfl⟩)
  · exact Or.inr (Or.inr ⟨_, by simp [beq_iff_eq.mp hsorted], rfl⟩)

theorem KeyedForm.eq_of_ofMapName? {name : String} {form : KeyedForm}
    (h : ofMapName? name = some form) : name = "HashMap" ∨ name = "BTreeMap" := by
  rw [ofMapName?] at h
  split_ifs at h with hhashed hsorted
  · exact Or.inl (beq_iff_eq.mp hhashed)
  · exact Or.inr (beq_iff_eq.mp hsorted)

/-! ### Kinds and meanings of paths -/

section Paths

variable {segments inner : List String} {name : String} {a b e : TypeShape}

/-- A path without arguments is no collection. -/
theorem CollectionKind.of_path_nil (segments : List String) :
    of (.path segments []) = .scalar := by
  cases h : segments.getLast? <;> simp [of, known?, ofPath?, structural?, TypeShape.args,
    TypeShape.ident?, h]

theorem SemanticType.of_path_nil (hname : segments.getLast? = some name) :
    of (.path segments []) = (ofIdent? name).getD (.other (TypeShape.path segments []).text) := by
  simp [of, TypeShape.unwrapOption, ofPlain, hname]

theorem SemanticType.of_option (hname : segments.getLast? = some "Option") :
    of (.path segments [a]) = of a := by
  simp [of, TypeShape.unwrapOption, hname]

/-- With one argument only an option may mean a primitive. -/
theorem SemanticType.isPrimitive_of_path_one (hname : segments.getLast? = some name)
    (hoption : name ≠ "Option") : (of (.path segments [a])).isPrimitive = false := by
  simp only [of, TypeShape.unwrapOption, ofPlain, hname, beq_iff_eq, Option.some.injEq, hoption,
    if_false]
  split <;> rfl

namespace CollectionKind

/-- The shapes of the keys and elements of a type that is known exactly. -/
def parts (s : TypeShape) : Option TypeShape × Option TypeShape := (of s).elementShapes s

theorem parts_of_path_one (hname : segments.getLast? = some name)
    (hmem : name ∈ ["Vec", "VecDeque", "Stack", "HashSet", "BTreeSet"]) :
    parts (.path segments [a]) = (none, some a) := by
  simp only [List.mem_cons, List.not_mem_nil, or_false] at hmem
  rcases hmem with rfl | rfl | rfl | rfl | rfl <;>
    simp [parts, of, known?, hname, isShared, ofPath?, elementShapes, TypeShape.args]

theorem parts_of_slice (hname : segments.getLast? = some name) (hmem : name ∈ ["Box", "Arc"]) :
    parts (.path segments [.slice e]) = (none, some e) := by
  simp only [List.mem_cons, List.not_mem_nil, or_false] at hmem
  rcases hmem with rfl | rfl <;>
    simp [parts, of, known?, hname, isShared, TypeShape.isSlice, elementShapes, sliceElement?,
      TypeShape.args]

theorem parts_of_sharedList (hname : segments.getLast? = some "Arc")
    (hinner : inner.getLast? = some "Vec") :
    parts (.path segments [.path inner [e]]) = (none, some e) := by
  simp [parts, of, known?, hname, hinner, isShared, shared?, ofPath?, TypeShape.isSlice,
    elementShapes, TypeShape.args]

theorem parts_of_map (hname : segments.getLast? = some name)
    (hmap : name = "HashMap" ∨ name = "BTreeMap") :
    parts (.path segments [a, b]) = (some a, some b) := by
  rcases hmap with rfl | rfl <;>
    simp [parts, of, known?, hname, ofPath?, elementShapes, elementShapes.entryShapes,
      TypeShape.args]

theorem parts_of_sharedMap (hname : segments.getLast? = some "Arc")
    (hinner : inner.getLast? = some name) (hmap : name = "HashMap" ∨ name = "BTreeMap") :
    parts (.path segments [.path inner [a, b]]) = (some a, some b) := by
  rcases hmap with rfl | rfl <;>
    simp [parts, of, known?, hname, hinner, isShared, shared?, ofPath?, TypeShape.isSlice,
      elementShapes, elementShapes.entryShapes, TypeShape.args]

/-- Options and references to rows are no collections: their names do not even end as those of
collections do. -/
theorem of_path_one_eq_scalar (hname : segments.getLast? = some name)
    (hmem : name ∈ ["Option", "SheetRef"]) : of (.path segments [a]) = .scalar := by
  have hends : ∀ name ∈ ["Option", "SheetRef"],
      ∀ ending ∈ ["Set", "List", "Vec", "Queue", "Deque", "Stack"],
        endsWith name ending = false := by decide
  have hstructural : structural? (.path segments [a]) = none := by
    simp [structural?, TypeShape.ident?, TypeShape.args, hname, hends name hmem]
  have hknown : known? (.path segments [a]) = none := by
    simp only [List.mem_cons, List.not_mem_nil, or_false] at hmem
    rcases hmem with rfl | rfl <;> simp [known?, hname, isShared, ofPath?]
  rw [of, hknown, hstructural]
  rfl

end CollectionKind

end Paths

/-! ### Descriptions -/

namespace FieldDescriptor

variable {name : String} {naming : Naming} {s e k : TypeShape}

/-- A description without references is one of keys and elements without references. -/
theorem parts_of_describe (h : (describe name naming s).mayHoldReferences = false) :
    (∀ k, (CollectionKind.parts s).1 = some k →
        (describe name naming k).mayHoldReferences = false) ∧
      ∀ e, (CollectionKind.parts s).2 = some e →
        (describe name naming e).mayHoldReferences = false := by
  rw [describe, mayHoldReferences, Bool.or_eq_false_iff, Bool.or_eq_false_iff] at h
  obtain ⟨⟨-, hkey⟩, helement⟩ := h
  constructor
  · intro k hk
    split at hkey
    · next k' hk' =>
      obtain rfl := Option.some.inj (hk.symm.trans hk')
      exact hkey
    · next hnone => exact absurd (hk.symm.trans hnone) (by simp)
  · intro e he
    split at helement
    · next e' he' =>
      obtain rfl := Option.some.inj (he.symm.trans he')
      exact helement
    · next hnone => exact absurd (he.symm.trans hnone) (by simp)

theorem element_of_describe {o : Option TypeShape} (hs : CollectionKind.parts s = (o, some e))
    (h : (describe name naming s).mayHoldReferences = false) :
    (describe name naming e).mayHoldReferences = false :=
  (parts_of_describe h).2 e (congrArg Prod.snd hs)

theorem key_of_describe {o : Option TypeShape} (hs : CollectionKind.parts s = (some k, o))
    (h : (describe name naming s).mayHoldReferences = false) :
    (describe name naming k).mayHoldReferences = false :=
  (parts_of_describe h).1 k (congrArg Prod.fst hs)

/-- A description without references of what is no collection is that of a primitive. -/
theorem isPrimitive_of_describe (hs : CollectionKind.of s = .scalar)
    (h : (describe name naming s).mayHoldReferences = false) :
    (SemanticType.of s).isPrimitive = true := by
  rw [describe, mayHoldReferences, Bool.or_eq_false_iff, Bool.or_eq_false_iff] at h
  have hnone : ((CollectionKind.of s).elementShapes s).2 = none := by
    rw [hs, CollectionKind.elementShapes]
  have hprimitive := Bool.not_eq_eq_eq_not.mp h.1.1
  split at hprimitive
  · next e he =>
    split at he
    · next e' he' => exact absurd (hnone.symm.trans he') (by simp)
    · cases he
  · exact hprimitive

/-- The description of a member says no more about references than that of its type, unless the
member is a list of rows. -/
theorem describe_of_field {d : RecordDecl} {m : MemberDecl}
    (h : (d.field m).mayHoldReferences = false) :
    (describe m.name d.ownNaming m.type).mayHoldReferences = false := by
  have helement : ∀ e : Option FieldDescriptor,
      (e.map fun e => e.withSemantic e.semantic) = e := by
    intro e
    cases e with
    | none => rfl
    | some e => cases e; rfl
  rw [RecordDecl.field] at h
  split at h
  next hdescribe =>
  rw [hdescribe, mayHoldReferences]
  rw [mayHoldReferences] at h
  cases hvertical : RecordDecl.verticalTarget? m with
  | none => simpa only [hvertical, Option.map_none, Option.getD_none, helement] using h
  | some target =>
    -- the rows of a member are records
    rw [hvertical] at h
    cases h

end FieldDescriptor

namespace CellType.Spelled

variable {records : String → RecordType → Prop} {s : TypeShape} {t : CellType}
  (hnames : ∀ name r, records name r →
    (SemanticType.ofIdent? name).any SemanticType.isPrimitive = false)

include hnames

/-- A type that means a primitive has neither references nor records in it. -/
theorem primitive_of_isPrimitive (ht : Spelled records s t)
    (h : (SemanticType.of s).isPrimitive = true) : t.Primitive := by
  induction ht with
  | scalar => trivial
  | assetRef hname =>
    rw [SemanticType.of_path_nil hname] at h
    cases h
  | dynamic hname =>
    rw [SemanticType.of_path_nil hname] at h
    cases h
  -- no record is named like a primitive type, so a name that means one is not that of a record
  | @record segments name r hname hr =>
    rw [SemanticType.of_path_nil hname] at h
    have hother := hnames name r hr
    cases hmeaning : SemanticType.ofIdent? name with
    | none =>
      rw [hmeaning] at h
      cases h
    | some meaning =>
      rw [hmeaning] at h hother
      exact absurd h (by simpa using hother)
  | sheetRef a target hname =>
    rw [SemanticType.isPrimitive_of_path_one hname (by decide)] at h
    cases h
  | @wrapped segments name a t wrap hname hwrap ht ih =>
    rcases wrapper?_cases hwrap with ⟨rfl, rfl⟩ | ⟨form, hmem, -⟩ | ⟨form, hmem, -⟩
    · rw [SemanticType.of_option hname] at h
      exact ⟨trivial, ih h⟩
    · rw [SemanticType.isPrimitive_of_path_one hname (by rintro rfl; simp at hmem)] at h
      cases h
    · rw [SemanticType.isPrimitive_of_path_one hname (by rintro rfl; simp at hmem)] at h
      cases h
  | boxedSlice hname | sharedSlice hname | sharedList hname | sharedMap hname =>
    rw [SemanticType.isPrimitive_of_path_one hname (by decide)] at h
    cases h
  | map | array => cases h

/-- A type that is described without references has neither references nor records in it. -/
theorem primitive_of_describe {name : String} {naming : Naming} (ht : Spelled records s t)
    (h : (FieldDescriptor.describe name naming s).mayHoldReferences = false) : t.Primitive := by
  -- where there are no parts, the type itself means a primitive
  have hscalar : ∀ {s t}, Spelled records s t → CollectionKind.of s = .scalar →
      (FieldDescriptor.describe name naming s).mayHoldReferences = false → t.Primitive :=
    fun ht hs h => ht.primitive_of_isPrimitive hnames
      (FieldDescriptor.isPrimitive_of_describe hs h)
  induction ht with
  | scalar => trivial
  | assetRef hname => exact hscalar (.assetRef hname) (CollectionKind.of_path_nil _) h
  | dynamic hname => exact hscalar (.dynamic hname) (CollectionKind.of_path_nil _) h
  | record hname hr => exact hscalar (.record hname hr) (CollectionKind.of_path_nil _) h
  | sheetRef a target hname =>
    exact hscalar (.sheetRef a target hname)
      (CollectionKind.of_path_one_eq_scalar hname (by simp)) h
  | @wrapped segments name a t wrap hname hwrap ht ih =>
    rcases wrapper?_cases hwrap with ⟨rfl, rfl⟩ | ⟨form, hmem, rfl⟩ | ⟨form, hmem, rfl⟩
    · exact hscalar (.wrapped hname hwrap ht)
        (CollectionKind.of_path_one_eq_scalar hname (by simp)) h
    · have hparts := CollectionKind.parts_of_path_one (a := a) hname
        (List.mem_append_left ["HashSet", "BTreeSet"] hmem)
      exact ⟨trivial, ih (FieldDescriptor.element_of_describe hparts h)⟩
    · have hparts := CollectionKind.parts_of_path_one (a := a) hname
        (List.mem_append_right ["Vec", "VecDeque", "Stack"] hmem)
      exact ⟨trivial, ih (FieldDescriptor.element_of_describe hparts h)⟩
  | boxedSlice hname _ ih | sharedSlice hname _ ih =>
    exact ⟨trivial, ih (FieldDescriptor.element_of_describe
      (CollectionKind.parts_of_slice hname (by simp)) h)⟩
  | sharedList hname hinner _ ih =>
    exact ⟨trivial, ih (FieldDescriptor.element_of_describe
      (CollectionKind.parts_of_sharedList hname hinner) h)⟩
  | @map segments name form a b k v hname hform _ _ ihk ihv =>
    have hparts := CollectionKind.parts_of_map (a := a) (b := b) hname
      (KeyedForm.eq_of_ofMapName? hform)
    exact ⟨trivial, ihk (FieldDescriptor.key_of_describe hparts h),
      ihv (FieldDescriptor.element_of_describe hparts h)⟩
  | @sharedMap segments inner name form a b k v hname hinner hform _ _ ihk ihv =>
    have hparts := CollectionKind.parts_of_sharedMap (a := a) (b := b) hname hinner
      (KeyedForm.eq_of_ofMapName? hform)
    exact ⟨trivial, ihk (FieldDescriptor.key_of_describe hparts h),
      ihv (FieldDescriptor.element_of_describe hparts h)⟩
  | array length n _ ih => exact ⟨trivial, ih (FieldDescriptor.element_of_describe rfl h)⟩

end CellType.Spelled

/-! ### Cells -/

theorem ScalarType.ofName?_name (s : ScalarType) : ofName? s.name = some s := by
  cases s with
  | int k => cases k <;> rfl
  | _ => rfl

/-- The written form of a cell type stands for it. -/
theorem CellType.spelled_shape : (t : CellType) → t.OwnNames →
    Spelled (fun name r => r.name = name ∧ r.head.hidesPrimitive = false) t.shape t
  | .scalar s, _ => .scalar rfl s.ofName?_name
  | .option t, h => .wrapped rfl rfl (t.spelled_shape h.2)
  | .sequence form t, h => by
    cases form with
    | boxedSlice => exact .boxedSlice rfl (t.spelled_shape h.2)
    | sharedSlice => exact .sharedSlice rfl (t.spelled_shape h.2)
    | sharedList => exact .sharedList rfl rfl (t.spelled_shape h.2)
    | list | queue | stack => exact .wrapped rfl rfl (t.spelled_shape h.2)
  | .array t _, h => .array _ _ (t.spelled_shape h.2)
  | .set form t, h => by
    cases form <;> exact .wrapped rfl rfl (t.spelled_shape h.2)
  | .map form shared k v, h => by
    cases form <;> cases shared
    · exact .map rfl rfl (k.spelled_shape h.2.1) (v.spelled_shape h.2.2)
    · exact .sharedMap rfl rfl rfl (k.spelled_shape h.2.1) (v.spelled_shape h.2.2)
    · exact .map rfl rfl (k.spelled_shape h.2.1) (v.spelled_shape h.2.2)
    · exact .sharedMap rfl rfl rfl (k.spelled_shape h.2.1) (v.spelled_shape h.2.2)
  | .sheetRef target, _ => .sheetRef _ target rfl
  | .assetRef, _ => .assetRef rfl
  | .record head ms, h => .record (r := ⟨head, ms⟩) rfl ⟨rfl, h.1⟩
  | .any, _ => .dynamic rfl

/-- A cell whose member is not looked at by the linker holds no references. -/
theorem CellType.refFree_of_field {d : RecordDecl} {info : MemberInfo} {t : CellType}
    (ht : t.OwnNames) (h : (d.field (MemberType.decl info (.cell t))).mayHoldReferences = false) :
    t.RefFree := by
  refine ((t.spelled_shape ht).primitive_of_describe ?_
    (FieldDescriptor.describe_of_field h)).refFree
  rintro name r ⟨rfl, hname⟩
  exact hname

section Read

variable {records : String → Option RecordType} {s : TypeShape} {t : CellType}

theorem CellType.spelled_of_ofName? {segments : List String} {name : String}
    (hname : segments.getLast? = some name) (h : ofName? records name = some t) :
    Spelled (fun name r => records name = some r) (.path segments []) t := by
  rw [ofName?] at h
  split at h
  · next s hs =>
    cases h
    exact .scalar hname hs
  · split_ifs at h with hasset hdynamic
    · cases h
      exact .assetRef (beq_iff_eq.mp hasset ▸ hname)
    · cases h
      exact .dynamic (beq_iff_eq.mp hdynamic ▸ hname)
    · obtain ⟨r, hr, rfl⟩ := Option.map_eq_some_iff.mp h
      exact .record hname hr

/-- What a declared type is read as is what it stands for. -/
theorem CellType.spelled_of_ofShape? (h : ofShape? records s = some t) :
    Spelled (fun name r => records name = some r) s t := by
  -- the cases that give a type: each is a spelling of it
  fun_induction ofShape? generalizing t with
  | case1 segments =>
    obtain ⟨name, hname, h⟩ := Option.bind_eq_some_iff.mp h
    exact spelled_of_ofName? hname h
  | case3 segments a name hname href =>
    cases h
    exact .sheetRef a _ (beq_iff_eq.mp href ▸ hname)
  | case4 segments name hname _ hbox e ih =>
    obtain ⟨t, ht, rfl⟩ := Option.map_eq_some_iff.mp h
    exact .boxedSlice (beq_iff_eq.mp hbox ▸ hname) (ih ht)
  | case6 segments name hname _ _ hshared e ih =>
    obtain ⟨t, ht, rfl⟩ := Option.map_eq_some_iff.mp h
    exact .sharedSlice (beq_iff_eq.mp hshared ▸ hname) (ih ht)
  | case7 segments name hname _ _ hshared inner e hinner ih =>
    obtain ⟨t, ht, rfl⟩ := Option.map_eq_some_iff.mp h
    exact .sharedList (beq_iff_eq.mp hshared ▸ hname) (beq_iff_eq.mp hinner) (ih ht)
  | case9 segments name hname _ _ hshared inner a b form k v hv hk hform ihk ihv =>
    cases h
    obtain ⟨map, hinner, hmap⟩ := Option.bind_eq_some_iff.mp hform
    exact .sharedMap (beq_iff_eq.mp hshared ▸ hname) hinner hmap (ihk hk) (ihv hv)
  | case12 segments a name hname _ _ _ wrap hwrap ih =>
    obtain ⟨t, ht, rfl⟩ := Option.map_eq_some_iff.mp h
    exact .wrapped hname hwrap (ih ht)
  | case14 segments a b form k v hv hk hform ihk ihv =>
    cases h
    obtain ⟨name, hname, hmap⟩ := Option.bind_eq_some_iff.mp hform
    exact .map hname hmap (ihk hk) (ihv hv)
  | case16 e length t n hlength ht ih =>
    cases h
    exact .array length n (ih ht)
  | _ => cases h

end Read

/-! ### Values -/

namespace Value

/-- A value stands in another one: it is the other one, or stands in an item, in a key or a value of
a map, or in a cell of it. -/
inductive Within (w : Value) : Value → Prop
  | self : Within w w
  | item {v : Value} {items : List Value} (hmem : v ∈ items) (h : Within w v) :
      Within w (.list items)
  | key {e : Value × Value} {entries : List (Value × Value)} (hmem : e ∈ entries)
      (h : Within w e.1) : Within w (.map entries)
  | value {e : Value × Value} {entries : List (Value × Value)} (hmem : e ∈ entries)
      (h : Within w e.2) : Within w (.map entries)
  | cell {c : String × Value} {cells : List (String × Value)} (hmem : c ∈ cells)
      (h : Within w c.2) : Within w (.record cells)

/-- No reference and no record. -/
def IsPrimitive : Value → Prop
  | .sheetRef _ => False
  | .assetRef _ => False
  | .record _ => False
  | _ => True

/-- No reference and no record stands anywhere in a value. -/
def Primitive (v : Value) : Prop := ∀ w, Within w v → w.IsPrimitive

/-- Neither a reference nor a value with others in it. -/
def IsLeaf : Value → Prop
  | .list _ => False
  | .map _ => False
  | v => v.IsPrimitive

theorem primitive_of_isLeaf {v : Value} (h : v.IsLeaf) : v.Primitive := by
  intro w hw
  cases hw with
  | self => cases v <;> trivial
  | item => exact h.elim
  | key => exact h.elim
  | value => exact h.elim
  | cell => exact h.elim

theorem primitive_list {items : List Value} (h : ∀ v ∈ items, v.Primitive) :
    (Value.list items).Primitive := by
  rintro w (_ | ⟨hmem, hw⟩)
  · trivial
  · exact h _ hmem w hw

theorem primitive_map {entries : List (Value × Value)}
    (h : ∀ e ∈ entries, e.1.Primitive ∧ e.2.Primitive) : (Value.map entries).Primitive := by
  intro w hw
  cases hw with
  | self => trivial
  | key hmem hw => exact (h _ hmem).1 w hw
  | value hmem hw => exact (h _ hmem).2 w hw

end Value

theorem ScalarType.primitive_print (s : ScalarType) (x : s.El) : (s.print x).Primitive := by
  cases s with
  | int k =>
    rw [print, printInt]
    split <;> exact Value.primitive_of_isLeaf trivial
  | _ => exact Value.primitive_of_isLeaf trivial

/-- A value of a type without references and records prints to a value without them. -/
theorem CellType.Primitive.print : {t : CellType} → t.Primitive → (n : Naming) → (x : t.El) →
    (t.print n x).Primitive
  | .scalar s, _, _, x => s.primitive_print x
  | .option t, h, n, x => by
    cases x with
    | none => exact Value.primitive_of_isLeaf trivial
    | some y => exact print (t := t) h.2 n y
  | .sequence _ t, h, n, _ => Value.primitive_list
    (List.forall_mem_map.mpr fun y _ => print (t := t) h.2 n y)
  | .array t _, h, n, _ => Value.primitive_list
    (List.forall_mem_map.mpr fun y _ => print (t := t) h.2 n y)
  | .set _ t, h, n, _ => Value.primitive_list
    (List.forall_mem_map.mpr fun y _ => print (t := t) h.2 n y)
  | .map _ _ k v, h, n, _ => Value.primitive_map
    (List.forall_mem_map.mpr fun e _ =>
      ⟨print (t := k) h.2.1 n e.1, print (t := v) h.2.2 n e.2⟩)
  | .sheetRef _, h, _, _ => h.elim
  | .assetRef, h, _, _ => h.elim
  | .record _ _, h, _, _ => h.1.elim
  | .any, h, _, _ => h.elim

/-- If the descriptor of a member says that it holds no references, then neither a reference nor a
record stands in what a value of the type of the member prints to, whatever type the declared one
stands for. No record may be named like a primitive type. -/
theorem CellType.primitive_print_of_field {records : String → RecordType → Prop}
    (hnames : ∀ name r, records name r →
      (SemanticType.ofIdent? name).any SemanticType.isPrimitive = false)
    {d : RecordDecl} {m : MemberDecl} {t : CellType} (ht : Spelled records m.type t)
    (h : (d.field m).mayHoldReferences = false) (n : Naming) (x : t.El) :
    (t.print n x).Primitive :=
  (ht.primitive_of_describe hnames (FieldDescriptor.describe_of_field h)).print n x

namespace Game

/-- No record of the game is named like a primitive type. -/
theorem isPrimitive_of_record? {name : String} {r : RecordType}
    (h : catalog.record? name = some r) :
    (SemanticType.ofIdent? name).any SemanticType.isPrimitive = false := by
  have hall : ∀ r ∈ catalog.records, r.head.hidesPrimitive = false := by decide
  rw [Catalog.record?] at h
  have hname := List.find?_some h
  exact beq_iff_eq.mp hname ▸ hall r (List.mem_of_find?_eq_some h)

/-- A member that holds lists of numbers by text. -/
def scores : MemberDecl :=
  .data "scores" (.path ["std", "collections", "HashMap"]
    [.ident "String" [], .ident "Vec" [.ident "Option" [.ident "u32" []]]])

end Game

/-- The scores of a player hold no references, and print to values without any. -/
theorem CellType.primitive_print_of_field_scores : ∃ t,
    Game.catalog.cellType? Game.scores.type = some t ∧
      ((RecordDecl.named "Player").field Game.scores).mayHoldReferences = false ∧
      ∀ n x, (t.print n x).Primitive := by
  have ht : Game.catalog.cellType? Game.scores.type = some (.map .hashed false (.scalar .text)
      (.sequence .list (.option (.scalar (.int .u32))))) := by rfl
  have hfield : ((RecordDecl.named "Player").field Game.scores).mayHoldReferences = false := by
    decide +kernel
  exact ⟨_, ht, hfield, primitive_print_of_field (fun _ _ => Game.isPrimitive_of_record?)
    (spelled_of_ofShape? ht) hfield⟩

namespace Game

/-- A string of a dialogue, and who speaks it. -/
def dialogueString : RecordType := .plain "String" [dataMember "speaker" (.sheetRef "Hero")]

/-- A member that holds one. -/
def line : MemberDecl := .data "line" (.path ["dialogue", "String"] [])

/-- The string that the hero with a key speaks. -/
def spokenBy (key : String) : dialogueString.Row := ((⟨key, none⟩ : SheetRef), ())

end Game

/-- Only the last part of a path is looked at, so a record may be taken for a primitive type. The
descriptor of a member of such a type says that it holds no references, and a reference stands in
what its value prints to. -/
theorem CellType.not_primitive_print_line :
    Spelled (fun name r => name = "String" ∧ r = Game.dialogueString) Game.line.type
        Game.dialogueString.cell ∧
      ((RecordDecl.named "Scene").field Game.line).mayHoldReferences = false ∧
      ¬ (Game.dialogueString.cell.print .pascal (Game.spokenBy "knight")).Primitive := by
  refine ⟨.record rfl ⟨rfl, rfl⟩, by decide +kernel, fun h => ?_⟩
  have hcell : Game.dialogueString.cell.print .pascal (Game.spokenBy "knight") =
      .record [("Speaker", .sheetRef ⟨"Hero", ⟨"knight", none⟩⟩)] := rfl
  rw [hcell] at h
  exact h _ (.cell List.mem_cons_self .self)

end TypedSheets
