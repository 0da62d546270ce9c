import Mathlib.Data.List.Forall2
import Mathlib.Data.Option.Basic
import TypedSheets.Game.Catalog
import TypedSheets.Proofs.Schema.Accessors
import TypedSheets.Proofs.Schema.Faults

/-!
# Descriptors at every level

The descriptor of a member holds those of its keys and elements, and so on down to what is not
collected. Two matches on the declared type are behind it: one finds the kind, the other the types
of keys and elements of that kind. They agree on every type, also where a type is told by the end of
its name only or is shared, so that each level has what its kind needs.

## Main definitions

* `Step`, `FieldDescriptor.at?`, `TypeShape.at?` — the levels of a descriptor and of a type
* `CollectionKind.Fits` — the types of keys and elements are those that the kind has
* `FieldDescriptor.Collects`, `FieldDescriptor.Means` — a level says of its type what is so

## Main results

* `CollectionKind.fits_of` — the kind of a type fits it
* `FieldDescriptor.at?_describe` — the levels of a descriptor are those of the type
* `RecordDecl.levels_of_extract` — every level of the members of a record that is extracted
-/

namespace TypedSheets

/-! ### The kind of a type -/

namespace CollectionKind

/-- For the type there are keys if the kind has them, and elements unless it is a scalar. -/
structure Fits (kind : CollectionKind) (s : TypeShape) : Prop where
  key : (kind.elementShapes s).1.isSome = true ↔ kind = .dictionary ∨ kind = .readOnlyDictionary
  element : (kind.elementShapes s).2.isSome = true ↔ kind ≠ .scalar

variable {k : CollectionKind}

/-- The kind of a path has as many arguments as it needs. -/
theorem fits_of_ofPath? {segments : List String} {ident : String} {args : List TypeShape}
    (h : ofPath? ident args = some k) : k.Fits (.path segments args) := by
  unfold ofPath? at h
  split at h
  · cases h
  · split_ifs at h <;> cases h <;> constructor <;> simp [elementShapes, TypeShape.args]
  · -- with two arguments there is a key too; a set looks at the first only
    split_ifs at h <;> cases h <;> constructor <;>
      simp [elementShapes, elementShapes.entryShapes, TypeShape.args]

theorem fits_of_structural? {s : TypeShape} (h : structural? s = some k) : k.Fits s := by
  unfold structural? at h
  split at h
  · next hargs =>
    split at h <;> cases h
    constructor <;> simp [elementShapes, elementShapes.entryShapes, hargs]
  · next hargs =>
    split_ifs at h <;> cases h <;> constructor <;> simp [elementShapes, hargs]
  · cases h

/-- A shared collection has the keys and elements of the collection. -/
theorem fits_of_shared? {segments : List String} {inner : TypeShape}
    (hinner : ∀ {k}, known? inner = some k → k.Fits inner)
    (h : shared? (known? inner) = some k) : k.Fits (.path segments [inner]) := by
  unfold shared? at h
  split at h
  · next hlist =>
    cases h
    have helement := (hinner hlist).element.mpr (by simp)
    constructor
    · simp [elementShapes]
    · simpa [elementShapes, TypeShape.args] using helement
  · next hmap =>
    cases h
    have hkey := (hinner hmap).key.mpr (by simp)
    have helement := (hinner hmap).element.mpr (by simp)
    constructor
    · simpa [elementShapes, TypeShape.args] using hkey
    · simpa [elementShapes, TypeShape.args] using helement
  · cases h

/-- A boxed or shared slice has the elements of the slice. -/
theorem fits_of_isSlice {segments : List String} {inner : TypeShape}
    (hslice : inner.isSlice = true) (hkind : k = .memoryView ∨ k = .readOnlyMemoryView) :
    k.Fits (.path segments [inner]) := by
  cases inner with
  | slice elem =>
    obtain rfl | rfl := hkind <;> constructor <;>
      simp [elementShapes, sliceElement?, TypeShape.args]
  | _ => cases hslice

/-- A kind that is known exactly fits. The induction goes down through shared pointers. -/
theorem fits_of_known? {s : TypeShape} (h : known? s = some k) : k.Fits s := by
  induction s using known?.induct generalizing k with
  | case1 elem length =>
    cases h
    constructor <;> simp [elementShapes]
  | case2 isMutable inner hslice =>
    -- a reference to a slice, of either kind
    cases inner with
    | slice elem =>
      cases isMutable <;> cases h <;> constructor <;> simp [elementShapes, sliceElement?]
    | _ => cases hslice
  | case3 isMutable inner hslice =>
    rw [known?, if_neg hslice] at h
    cases h
  | case4 segments inner hnone =>
    simp only [known?, hnone] at h
    cases h
  | case5 segments inner ident hident hbox =>
    simp only [known?, hident, if_pos hbox] at h
    cases h
    exact fits_of_isSlice (Bool.and_eq_true_iff.mp hbox).2 (Or.inl rfl)
  | case6 segments inner ident hident hbox hshared hslice =>
    simp only [known?, hident, if_neg hbox, if_pos hshared, if_pos hslice] at h
    cases h
    exact fits_of_isSlice hslice (Or.inr rfl)
  | case7 segments inner ident hident hbox hshared hslice ih =>
    simp only [known?, hident, if_neg hbox, if_pos hshared, if_neg hslice] at h
    exact fits_of_shared? ih h
  | case8 segments inner ident hident hbox hshared =>
    simp only [known?, hident, if_neg hbox, if_neg hshared] at h
    exact fits_of_ofPath? h
  | case9 segments args hargs =>
    rw [known?.eq_4 _ _ hargs] at h
    obtain ⟨ident, -, h⟩ := Option.bind_eq_some_iff.mp h
    exact fits_of_ofPath? h
  | case10 s harray hreference hpath hpaths =>
    cases s with
    | array elem length => exact absurd rfl (harray elem length)
    | reference isMutable inner => exact absurd rfl (hreference isMutable inner)
    | path segments args => exact absurd rfl (hpaths segments args)
    | _ => cases h

/-- The kind of a type fits it: the types of keys and elements are found for every kind that is. -/
theorem fits_of (s : TypeShape) : (CollectionKind.of s).Fits s := by
  obtain hknown | hstructural | hscalar := known?_or_structural? s
  · exact fits_of_known? hknown
  · exact fits_of_structural? hstructural
  · rw [hscalar]
    constructor <;> simp [elementShapes]

end CollectionKind

/-! ### Levels -/

/-- The two ways down in a descriptor and in a type. -/
inductive Branch where
  | key
  | element
  deriving DecidableEq

/-- The type of the keys or of the elements. -/
def TypeShape.below? (s : TypeShape) : Branch → Option TypeShape
  | .key => ((CollectionKind.of s).elementShapes s).1
  | .element => ((CollectionKind.of s).elementShapes s).2

/-- The type that is reached through keys and elements. -/
def TypeShape.at? (s : TypeShape) : (way : List Branch) → Option TypeShape
  | [] => some s
  | b :: way => (s.below? b).bind fun t => t.at? way

namespace FieldDescriptor

/-- The descriptor of the keys or of the elements. -/
def below? (f : FieldDescriptor) : Branch → Option FieldDescriptor
  | .key => f.key
  | .element => f.element

/-- The descriptor that is reached through keys and elements. -/
def at? (f : FieldDescriptor) : (way : List Branch) → Option FieldDescriptor
  | [] => some f
  | b :: way => (f.below? b).bind fun g => g.at? way

/-- The descriptor of what is collected at last, reached through elements only. -/
def innermost : FieldDescriptor → FieldDescriptor
  | .mk _ _ _ _ _ _ _ _ _ _ _ _ (some e) => e.innermost
  | .mk n p t s k w m i v mk' c key none => .mk n p t s k w m i v mk' c key none

/-- A level tells how values of the type are collected, and has what it needs for that. -/
structure Collects (f : FieldDescriptor) (s : TypeShape) : Prop where
  declaredType : f.declaredType = s.text
  kind : f.kind = CollectionKind.of s
  key : f.key.isSome = true ↔ f.kind = .dictionary ∨ f.kind = .readOnlyDictionary
  element : f.element.isSome = true ↔ f.kind ≠ .scalar

/-- A level means what is collected at last means, and a scalar what its type means. -/
structure Means (f : FieldDescriptor) (s : TypeShape) : Prop where
  innermost : f.semantic = f.innermost.semantic
  scalar : f.kind = .scalar → f.semantic = SemanticType.of s

section Describe

variable (name : String) (naming : Naming) (s : TypeShape)

@[simp] theorem declaredType_describe : (describe name naming s).declaredType = s.text := by
  rw [describe]
  rfl

@[simp] theorem kind_describe : (describe name naming s).kind = CollectionKind.of s := by
  rw [describe]
  rfl

/-- Keys and elements are described as their types are. -/
theorem below?_describe (b : Branch) :
    (describe name naming s).below? b = (s.below? b).map (describe name naming) := by
  rw [describe]
  cases b with
  | key =>
    simp only [below?, key, TypeShape.below?]
    split <;> next h => simp [h]
  | element =>
    simp only [below?, element, TypeShape.below?]
    split <;> next h => simp [h]

theorem semantic_describe : (describe name naming s).semantic =
    match (describe name naming s).element with
    | some e => e.semantic
    | none => SemanticType.of s := by
  rw [describe]
  rfl

/-- The levels of a descriptor are those of the type. -/
theorem at?_describe (way : List Branch) :
    (describe name naming s).at? way = (s.at? way).map (describe name naming) := by
  induction way generalizing s with
  | nil => rfl
  | cons b way ih =>
    rw [at?, TypeShape.at?, below?_describe]
    cases s.below? b with
    | none => rfl
    | some t => exact ih t

/-- A descriptor has what the kind of its type needs. -/
theorem collects_describe : (describe name naming s).Collects s := by
  obtain ⟨hkey, helement⟩ := CollectionKind.fits_of s
  have hkeys : (describe name naming s).key = _ := below?_describe name naming s .key
  have helements : (describe name naming s).element = _ := below?_describe name naming s .element
  refine ⟨by simp, by simp, ?_, ?_⟩
  · rw [hkeys, kind_describe, Option.isSome_map]
    exact hkey
  · rw [helements, kind_describe, Option.isSome_map]
    exact helement

end Describe

theorem innermost_of_element {f e : FieldDescriptor} (h : f.element = some e) :
    f.innermost = e.innermost := by
  obtain ⟨n, p, t, s, k, w, m, i, v, mk', c, key, element⟩ := f
  obtain rfl : element = some e := h
  rw [innermost]

theorem innermost_of_none {f : FieldDescriptor} (h : f.element = none) : f.innermost = f := by
  obtain ⟨n, p, t, s, k, w, m, i, v, mk', c, key, element⟩ := f
  obtain rfl : element = none := h
  rw [innermost]

/-- The meaning of what is collected at last comes up through all the levels above. -/
theorem semantic_innermost_describe (name : String) (naming : Naming) (s : TypeShape) :
    (describe name naming s).semantic = (describe name naming s).innermost.semantic := by
  have helement := below?_describe name naming s .element
  have hsemantic := semantic_describe name naming s
  cases hbelow : s.below? .element with
  | none =>
    rw [hbelow, Option.map_none] at helement
    rw [innermost_of_none helement]
  | some e =>
    rw [hbelow, Option.map_some] at helement
    have helement' : (describe name naming s).element = some (describe name naming e) := helement
    rw [helement'] at hsemantic
    rw [hsemantic, innermost_of_element helement']
    exact semantic_innermost_describe name naming e
termination_by sizeOf s
decreasing_by exact CollectionKind.sizeOf_lt_of_elementShapes (Or.inr hbelow)

/-- A descriptor means what is collected at last. -/
theorem means_describe (name : String) (naming : Naming) (s : TypeShape) :
    (describe name naming s).Means s where
  innermost := semantic_innermost_describe name naming s
  scalar hkind := by
    have helement := (collects_describe name naming s).element
    have hnone : (describe name naming s).element = none := by
      simpa [hkind] using helement
    rw [semantic_describe, hnone]

end FieldDescriptor

/-! ### Members -/

namespace FieldDescriptor

variable {f g : FieldDescriptor} {s : TypeShape} {name : String} {naming : Naming}

/-- What holds of the descriptors of types holds at every level of a descriptor. -/
theorem rel_at?_describe {P : FieldDescriptor → TypeShape → Prop}
    (hP : ∀ t, P (describe name naming t) t) (s : TypeShape) (way : List Branch) :
    Option.Rel P ((describe name naming s).at? way) (s.at? way) := by
  rw [at?_describe]
  cases s.at? way with
  | none => exact .none
  | some t => exact .some (hP t)

/-- Another meaning leaves the levels below as they are. -/
theorem at?_withSemantic (x : SemanticType) (f : FieldDescriptor) (b : Branch)
    (way : List Branch) : (f.withSemantic x).at? (b :: way) = f.at? (b :: way) := by
  obtain ⟨n, p, t, s, k, w, m, i, v, mk', c, key, element⟩ := f
  cases b <;> rfl

theorem Collects.withSemantic (h : f.Collects s) (x : SemanticType) :
    (f.withSemantic x).Collects s := by
  obtain ⟨n, p, t, s, k, w, m, i, v, mk', c, key, element⟩ := f
  exact ⟨h.declaredType, h.kind, h.key, h.element⟩

/-- The levels of a descriptor that was given another meaning have what they need, too. -/
theorem collects_withSemantic (x : SemanticType) (s : TypeShape) (way : List Branch) :
    Option.Rel Collects (((describe name naming s).withSemantic x).at? way) (s.at? way) := by
  cases way with
  | nil => exact .some ((collects_describe name naming s).withSemantic x)
  | cons b way =>
    rw [at?_withSemantic]
    exact rel_at?_describe (collects_describe name naming) s (b :: way)

/-- What a level means is said by its own meaning, its kind and its elements. -/
theorem Means.congr (h : g.Means s) (hsemantic : f.semantic = g.semantic) (hkind : f.kind = g.kind)
    (helement : f.element = g.element) : f.Means s := by
  refine ⟨?_, fun hscalar => hsemantic.trans (h.scalar (hkind ▸ hscalar))⟩
  cases he : g.element with
  | none => rw [innermost_of_none (helement.trans he)]
  | some e =>
    rw [hsemantic, h.innermost, innermost_of_element he, innermost_of_element (helement.trans he)]

end FieldDescriptor

namespace RecordDecl

open FieldDescriptor (describe)

variable (d : RecordDecl) (m : MemberDecl)

/-- The descriptor of a member has the kind and the keys of its type. Its elements may have another
meaning. -/
theorem field_eq : (d.field m).declaredType = m.type.text ∧
    (d.field m).kind = CollectionKind.of m.type ∧
    (d.field m).key = (describe m.name d.ownNaming m.type).key ∧
    (d.field m).element = (describe m.name d.ownNaming m.type).element.map fun e =>
      e.withSemantic (((verticalTarget? m).map SemanticType.record).getD e.semantic) := by
  have hkind := FieldDescriptor.kind_describe m.name d.ownNaming m.type
  have htype := FieldDescriptor.declaredType_describe m.name d.ownNaming m.type
  rw [field]
  generalize describe m.name d.ownNaming m.type = f at hkind htype ⊢
  cases f
  exact ⟨htype, hkind, rfl, rfl⟩

/-- The descriptor of a member that is not vertical means what its type means, as its elements
do. -/
theorem field_eq_of_not_isVertical (h : m.isVertical = false) :
    (d.field m).semantic = (describe m.name d.ownNaming m.type).semantic ∧
      (d.field m).element = (describe m.name d.ownNaming m.type).element := by
  have htarget : verticalTarget? m = none := by simp [verticalTarget?, h]
  constructor
  · rw [field, htarget]
    cases describe m.name d.ownNaming m.type
    rfl
  · obtain ⟨-, -, -, helement⟩ := d.field_eq m
    rw [helement, htarget]
    cases (describe m.name d.ownNaming m.type).element with
    | none => rfl
    | some e =>
      cases e
      rfl

/-- Every level of the descriptor of a member has what the kind of its type needs. -/
theorem collects_field (way : List Branch) :
    Option.Rel FieldDescriptor.Collects ((d.field m).at? way) (m.type.at? way) := by
  obtain ⟨htype, hkind, hkey, helement⟩ := d.field_eq m
  have hbelow := FieldDescriptor.below?_describe m.name d.ownNaming m.type
  match way with
  | [] =>
    have htop := FieldDescriptor.collects_describe m.name d.ownNaming m.type
    apply Option.Rel.some
    refine ⟨htype, hkind, ?_, ?_⟩
    · rw [hkey, hkind, htop.key, FieldDescriptor.kind_describe]
    · rw [helement, Option.isSome_map, hkind, htop.element, FieldDescriptor.kind_describe]
  | .key :: way =>
    have hlevel : (d.field m).below? .key = _ := hkey.trans (hbelow .key)
    rw [FieldDescriptor.at?, TypeShape.at?, hlevel]
    cases m.type.below? .key with
    | none => exact .none
    | some k =>
      exact FieldDescriptor.rel_at?_describe (FieldDescriptor.collects_describe _ _) k way
  | .element :: way =>
    -- the elements of a vertical member are given the meaning of its record type
    have hdescribe : (describe m.name d.ownNaming m.type).element = _ := hbelow .element
    have hlevel : (d.field m).below? .element = _ := helement
    rw [FieldDescriptor.at?, TypeShape.at?, hlevel, hdescribe]
    cases m.type.below? .element with
    | none => exact .none
    | some e => exact FieldDescriptor.collects_withSemantic _ e way

/-- Every level of the descriptor of a member that is not vertical means what is collected there at
last. -/
theorem means_field (h : m.isVertical = false) (way : List Branch) :
    Option.Rel FieldDescriptor.Means ((d.field m).at? way) (m.type.at? way) := by
  obtain ⟨-, hkind, hkey, -⟩ := d.field_eq m
  obtain ⟨hsemantic, helement⟩ := d.field_eq_of_not_isVertical m h
  have hmeans := FieldDescriptor.means_describe m.name d.ownNaming
  cases way with
  | nil =>
    apply Option.Rel.some
    refine (hmeans m.type).congr hsemantic ?_ helement
    rw [hkind, FieldDescriptor.kind_describe]
  | cons b way =>
    have hbelow : (d.field m).below? b = (describe m.name d.ownNaming m.type).below? b := by
      cases b with
      | key => exact hkey
      | element => exact helement
    have hlevels := FieldDescriptor.rel_at?_describe hmeans m.type (b :: way)
    rwa [FieldDescriptor.at?, ← hbelow] at hlevels

end RecordDecl

/-! ### Accessors -/

namespace RecordSchema

variable {s : RecordSchema} {f : FieldDescriptor} {a : Accessor} {g : GeneratedMembers}

/-- A setter that collects is one of a member with elements, if what is collected has them. -/
theorem isSome_item_of_accessor (helement : f.kind ≠ .scalar → f.element.isSome = true)
    (ha : (s.accessor f).1 = some a) (hcopy : a.marshaling = .copyIn) : a.item.isSome = true := by
  rw [accessor] at ha
  dsimp only at ha
  split at ha
  · cases ha
  · obtain rfl := Option.some.inj ha
    dsimp only at hcopy ⊢
    rw [if_pos hcopy]
    -- only collections are copied in
    have hkind : f.kind ≠ .scalar := by
      intro hscalar
      rw [FieldDescriptor.marshaling, hscalar] at hcopy
      split_ifs at hcopy
    obtain ⟨e, he⟩ := Option.isSome_iff_exists.mp (helement hkind)
    rw [FieldDescriptor.itemType?, he]
    cases f.key <;> rfl

end RecordSchema

/-- Every level of the descriptors of a record that is extracted has the kind of its type, keys if
this is the kind of a map, and elements unless it is a scalar. A member that is not vertical means
at every level what is collected there at last. So a generated accessor with a setter that collects
knows what it takes. -/
theorem RecordDecl.levels_of_extract {d : RecordDecl} {s : RecordSchema} (h : d.extract = .ok s) :
    List.Forall₂
      (fun m f => ∀ way,
        Option.Rel FieldDescriptor.Collects (f.at? way) (m.type.at? way) ∧
        (m.isVertical = false → Option.Rel FieldDescriptor.Means (f.at? way) (m.type.at? way)))
      d.dataMembers s.fields ∧
    ∀ g, s.generate = .ok g → ∀ a ∈ g.accessors,
      a.marshaling = .copyIn → a.setter.isSome = true → a.item.isSome = true := by
  obtain ⟨-, rfl⟩ := extract_eq_ok_iff.mp h
  constructor
  · rw [schema, List.forall₂_map_right_iff, List.forall₂_same]
    exact fun m _ way => ⟨d.collects_field m way, fun hm => d.means_field m hm way⟩
  · intro g hg a ha hcopy _
    rw [RecordSchema.accessors_of_generate hg] at ha
    obtain ⟨f, hf, haccessor⟩ := List.mem_filterMap.mp ha
    obtain ⟨m, -, rfl⟩ := List.mem_map.mp hf
    refine RecordSchema.isSome_item_of_accessor (fun hkind => ?_) haccessor hcopy
    obtain ⟨hcollects⟩ := d.collects_field m []
    exact hcollects.element.mpr hkind

/-- A shared map in order of its keys: its descriptor has a key and an element, and means what is
collected in it. -/
theorem RecordDecl.levels_of_extract_views : ∃ s f,
    Game.views.record.decl.extract = .ok s ∧ s.fields[4]? = some f ∧
      f.kind = .readOnlyDictionary ∧ f.key.isSome = true ∧ f.element.isSome = true ∧
      f.semantic = f.innermost.semantic := by
  have hextract : Game.views.record.decl.extract = .ok Game.views.record.decl.schema :=
    RecordDecl.extract_of_isNone (by decide +kernel)
  obtain ⟨hlevels, -⟩ := RecordDecl.levels_of_extract hextract
  refine ⟨_, _, hextract, rfl, ?_⟩
  obtain ⟨hcollects, hmeans⟩ := (List.forall₂_iff_get.mp hlevels).2 4 (by decide) (by decide) []
  obtain ⟨hcollects⟩ := hcollects
  obtain ⟨hmeans⟩ := hmeans rfl
  have hkind : FieldDescriptor.kind _ = .readOnlyDictionary := hcollects.kind
  refine ⟨hkind, hcollects.key.mpr (Or.inr hkind), hcollects.element.mpr ?_, hmeans.innermost⟩
  intro hscalar
  cases hkind.symm.trans hscalar

end TypedSheets
