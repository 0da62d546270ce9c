import TypedSheets.Proofs.Schema.Columns

/-!
# The first fault of a declaration

The data members of a record are checked one after the other, each against those in front of it, and
of each member four things in a fixed order. The first fault that is found is the error, and where
there is none the record has a descriptor for every data member. What is not a data member is only
listed as ignored.

## Main definitions

* `TypeShape.SameButPrefixes` — shapes that differ in front of the last segments of paths
* `TypeShape.IsScalarPrimitive`, `TypeShape.SequenceOf` — the types of converter inputs and of
  vertical members
* `MemberRule` — what is checked of a member, in order
* `RecordDecl.Breaks`, `RecordDecl.BreaksAt` — a member breaks a rule, with this error
* `FieldDescriptor.Describes` — the descriptor of a member

## Main results

* `TypeShape.lastSegments_eq_iff` — what is compared of converter outputs
* `TypeShape.sequenceOf_iff` — arrays, lists and boxed slices, and their elements
* `RecordDecl.memberFault?_eq_some_iff` — the fault of a member is that of the first rule it breaks
* `RecordDecl.faultFrom?_eq_some_iff` — the fault of members is that of the first one
* `RecordDecl.check?_eq_of_breaksAt` — behind members without faults a rule is broken with one error
* `RecordDecl.extract_outcome` — when a declaration gives a record, and which error it gives else
-/

namespace TypedSheets

/-! ### Types of members -/

namespace TypeShape

mutual

/-- Shapes that differ at most in what stands in front of the last segments of paths. -/
def SameButPrefixes : TypeShape → TypeShape → Prop
  | .path s as, .path t bs => s.getLast? = t.getLast? ∧ EachSameButPrefixes as bs
  | .array a m, .array b n => SameButPrefixes a b ∧ m = n
  | .slice a, .slice b => SameButPrefixes a b
  | .reference m a, .reference n b => m = n ∧ SameButPrefixes a b
  | .tuple as, .tuple bs => EachSameButPrefixes as bs
  | .other s, .other t => s = t
  | _, _ => False

/-- Lists of such shapes, one by one. -/
def EachSameButPrefixes : List TypeShape → List TypeShape → Prop
  | [], [] => True
  | a :: as, b :: bs => SameButPrefixes a b ∧ EachSameButPrefixes as bs
  | _, _ => False

end

mutual

/-- Shapes are compared without what stands in front of the last segments of their paths. -/
theorem lastSegments_eq_iff : (a b : TypeShape) →
    (a.lastSegments = b.lastSegments ↔ a.SameButPrefixes b)
  | .path s as, .path t bs => by
    have hlast : s.getLast?.toList = t.getLast?.toList ↔ s.getLast? = t.getLast? := by
      cases s.getLast? <;> cases t.getLast? <;> simp
    rw [lastSegments, lastSegments, TypeShape.path.injEq, hlast, lastSegmentsEach_eq_iff as bs,
      SameButPrefixes]
  | .array a m, .array b n => by
    rw [lastSegments, lastSegments, TypeShape.array.injEq, lastSegments_eq_iff a b,
      SameButPrefixes]
  | .slice a, .slice b => by
    rw [lastSegments, lastSegments, TypeShape.slice.injEq, lastSegments_eq_iff a b,
      SameButPrefixes]
  | .reference m a, .reference n b => by
    rw [lastSegments, lastSegments, TypeShape.reference.injEq, lastSegments_eq_iff a b,
      SameButPrefixes]
  | .tuple as, .tuple bs => by
    rw [lastSegments, lastSegments, TypeShape.tuple.injEq, lastSegmentsEach_eq_iff as bs,
      SameButPrefixes]
  | .other s, .other t => by
    rw [lastSegments, lastSegments, TypeShape.other.injEq, SameButPrefixes]
  -- shapes of two kinds
  | .path .., .array .. | .path .., .slice _ | .path .., .reference .. | .path .., .tuple _
  | .path .., .other _ | .array .., .path .. | .array .., .slice _ | .array .., .reference ..
  | .array .., .tuple _ | .array .., .other _ | .slice _, .path .. | .slice _, .array ..
  | .slice _, .reference .. | .slice _, .tuple _ | .slice _, .other _ | .reference .., .path ..
  | .reference .., .array .. | .reference .., .slice _ | .reference .., .tuple _
  | .reference .., .other _ | .tuple _, .path .. | .tuple _, .array .. | .tuple _, .slice _
  | .tuple _, .reference .. | .tuple _, .other _ | .other _, .path .. | .other _, .array ..
  | .other _, .slice _ | .other _, .reference .. | .other _, .tuple _ => by
    simp [lastSegments, SameButPrefixes]

theorem lastSegmentsEach_eq_iff : (as bs : List TypeShape) →
    (lastSegmentsEach as = lastSegmentsEach bs ↔ EachSameButPrefixes as bs)
  | [], [] => by simp [EachSameButPrefixes]
  | [], _ :: _ => by simp [lastSegmentsEach, EachSameButPrefixes]
  | _ :: _, [] => by simp [lastSegmentsEach, EachSameButPrefixes]
  | a :: as, b :: bs => by
    rw [lastSegmentsEach, lastSegmentsEach, List.cons.injEq, lastSegments_eq_iff a b,
      lastSegmentsEach_eq_iff as bs, EachSameButPrefixes]

end

/-- A truth value, number or text that is not collected. -/
def IsScalarPrimitive (s : TypeShape) : Prop :=
  CollectionKind.of s = .scalar ∧ (SemanticType.of s).isPrimitive = true

/-- An array, a list or a boxed slice, and the shape of its elements. -/
inductive SequenceOf : TypeShape → TypeShape → Prop
  | array (elem : TypeShape) (length : String) : SequenceOf (.array elem length) elem
  | list {segments : List String} {elem : TypeShape}
      (hkind : CollectionKind.of (.path segments [elem]) = .list) :
      SequenceOf (.path segments [elem]) elem
  | boxedSlice {segments : List String} (elem : TypeShape) (hbox : segments.getLast? = some "Box") :
      SequenceOf (.path segments [.slice elem]) elem

end TypeShape

/-! ### Sequences -/

namespace CollectionKind

/-- Of the sequences only lists are told by the end of a name or by the last segment of a path. -/
theorem isSequence_structural? {s : TypeShape} {k : CollectionKind} (h : structural? s = some k)
    (hk : k.isSequence = true) : k = .list ∧ ∃ elem, s.args = [elem] := by
  unfold structural? at h
  split at h
  · split at h <;> cases h
    cases hk
  · next harg =>
    refine ⟨?_, _, harg⟩
    split_ifs at h <;> cases h <;> first | rfl | cases hk
  · cases h

theorem isSequence_ofPath? {ident : String} {args : List TypeShape} {k : CollectionKind}
    (h : ofPath? ident args = some k) (hk : k.isSequence = true) :
    k = .list ∧ ∃ elem, args = [elem] := by
  unfold ofPath? at h
  split at h
  · cases h
  · refine ⟨?_, _, rfl⟩
    split_ifs at h <;> cases h <;> first | rfl | cases hk
  · split_ifs at h <;> cases h <;> cases hk

theorem isSequence_shared? {o : Option CollectionKind} {k : CollectionKind}
    (h : shared? o = some k) : k.isSequence = false := by
  unfold shared? at h
  split at h <;> cases h <;> rfl

/-- The sequences that are known exactly. -/
theorem isSequence_known? {s : TypeShape} {k : CollectionKind} (h : known? s = some k)
    (hk : k.isSequence = true) : (k = .array ∧ ∃ elem length, s = .array elem length) ∨
      (k = .list ∧ ∃ elem, s.args = [elem]) ∨
      (k = .memoryView ∧ ∃ segments elem, segments.getLast? = some "Box" ∧
        s = .path segments [.slice elem]) := by
  cases s with
  | array elem length =>
    cases h
    exact Or.inl ⟨rfl, elem, length, rfl⟩
  | path segments args =>
    right
    -- only behind one argument may the path be that of a box
    obtain _ | ⟨inner, _ | ⟨second, rest⟩⟩ := args
    · obtain ⟨ident, -, h⟩ := Option.bind_eq_some_iff.mp h
      exact Or.inl (isSequence_ofPath? h hk)
    · simp only [known?] at h
      split at h
      · cases h
      · next ident hident =>
        split_ifs at h with hbox hshared hslice
        · cases h
          obtain ⟨hname, hinner⟩ := Bool.and_eq_true_iff.mp hbox
          obtain rfl := beq_iff_eq.mp hname
          cases inner with
          | slice elem => exact Or.inr ⟨rfl, segments, elem, hident, rfl⟩
          | _ => cases hinner
        · cases h
          cases hk
        · rw [isSequence_shared? h] at hk
          cases hk
        · exact Or.inl (isSequence_ofPath? h hk)
    · obtain ⟨ident, -, h⟩ := Option.bind_eq_some_iff.mp h
      exact Or.inl (isSequence_ofPath? h hk)
  | reference m inner =>
    simp only [known?] at h
    split_ifs at h <;> cases h <;> cases hk
  | _ => cases h

theorem known?_or_structural? (s : TypeShape) :
    known? s = some (.of s) ∨ structural? s = some (.of s) ∨ CollectionKind.of s = .scalar := by
  rw [of]
  cases known? s with
  | some k => exact Or.inl rfl
  | none =>
    cases structural? s with
    | some k => exact Or.inr (Or.inl rfl)
    | none => exact Or.inr (Or.inr rfl)

/-- The types that are sequences. -/
theorem isSequence_of {s : TypeShape} (h : (CollectionKind.of s).isSequence = true) :
    (∃ elem length, s = .array elem length) ∨
      (CollectionKind.of s = .list ∧ ∃ elem, s.args = [elem]) ∨
      (CollectionKind.of s = .memoryView ∧ ∃ segments elem, segments.getLast? = some "Box" ∧
        s = .path segments [.slice elem]) := by
  obtain hknown | hstructural | hscalar := known?_or_structural? s
  · exact (isSequence_known? hknown h).imp_left And.right
  · exact Or.inr (Or.inl (isSequence_structural? hstructural h))
  · rw [hscalar] at h
    cases h

end CollectionKind

/-- A type is a sequence of these elements if its kind is one and has them. -/
theorem TypeShape.sequenceOf_iff {s elem : TypeShape} : s.SequenceOf elem ↔
    (CollectionKind.of s).isSequence = true ∧
      ((CollectionKind.of s).elementShapes s).2 = some elem := by
  constructor
  · intro h
    cases h with
    | array length => exact ⟨rfl, rfl⟩
    | list hkind =>
      rw [hkind]
      exact ⟨rfl, rfl⟩
    | @boxedSlice segments _ hbox =>
      have hkind : CollectionKind.of (.path segments [.slice elem]) = .memoryView := by
        simp [CollectionKind.of, CollectionKind.known?, hbox, TypeShape.isSlice]
      rw [hkind]
      exact ⟨rfl, rfl⟩
  -- the kinds that are sequences are those of arrays, lists and boxed slices
  · rintro ⟨hk, helem⟩
    obtain ⟨x, length, rfl⟩ | ⟨hkind, x, hargs⟩ | ⟨hkind, segments, x, hbox, rfl⟩ :=
      CollectionKind.isSequence_of hk
    · obtain rfl := Option.some.inj helem
      exact .array x length
    · cases s with
      | path segments args =>
        obtain rfl : args = [x] := hargs
        rw [hkind] at helem
        obtain rfl := Option.some.inj helem
        exact .list hkind
      | _ => cases hargs
    · rw [hkind] at helem
      obtain rfl := Option.some.inj helem
      exact .boxedSlice x hbox

/-! ### Rules for members -/

/-- What is checked of a data member. -/
inductive MemberRule where
  /-- Its property name is its own. -/
  | accessor
  /-- It is the only id. -/
  | id
  /-- Its converter makes its type of a primitive. -/
  | converter
  /-- If it is vertical, it is a sequence of records. -/
  | vertical
  deriving DecidableEq

/-- The rules are checked in this order. -/
def MemberRule.rank : MemberRule → Nat
  | .accessor => 0
  | .id => 1
  | .converter => 2
  | .vertical => 3

namespace RecordDecl

/-- A data member behind others breaks a rule, with this error. -/
inductive Breaks (d : RecordDecl) (earlier : List MemberDecl) (m : MemberDecl) :
    MemberRule → SchemaError → Prop
  | accessor {other : MemberDecl} (hother : other ∈ earlier)
      (hname : propertyName other.name = propertyName m.name) : Breaks d earlier m .accessor
        (.ambiguousAccessor d.name (propertyName m.name) other.name m.name)
  | id {other : MemberDecl} (hother : other ∈ earlier) (hid : other.isId = true)
      (hmember : m.isId = true) : Breaks d earlier m .id
        (.multipleIdMembers d.name other.name m.name)
  | output {c : ConverterDecl} (hc : m.converter = some c)
      (houtput : ¬ c.output.SameButPrefixes m.type) : Breaks d earlier m .converter
        (.invalidConverter d.name m.name c.path ("output `" ++ m.type.text ++ "`")
          ("`" ++ c.output.text ++ "`"))
  | input {c : ConverterDecl} (hc : m.converter = some c)
      (houtput : c.output.SameButPrefixes m.type) (hinput : ¬ c.input.IsScalarPrimitive) :
      Breaks d earlier m .converter
        (.invalidConverter d.name m.name c.path
          "a primitive input (bool, integer, float or string)" ("`" ++ c.input.text ++ "`"))
  | vertical (hvertical : m.isVertical = true)
      (hnone : ∀ elem, m.type.SequenceOf elem → elem.ident? = none) : Breaks d earlier m .vertical
        (.invalidVerticalList d.name m.name
          ((CollectionKind.of m.type).name ++ " `" ++ m.type.text ++ "`"))

/-- The data member at a position breaks a rule, with this error. -/
def BreaksAt (d : RecordDecl) (i : Nat) (rule : MemberRule) (e : SchemaError) : Prop :=
  ∃ m, d.dataMembers[i]? = some m ∧ d.Breaks (d.dataMembers.take i) m rule e

/-- The check of a rule. -/
def check? (d : RecordDecl) (earlier : List MemberDecl) (m : MemberDecl) :
    MemberRule → Option SchemaError
  | .accessor => d.checkAccessor? earlier m
  | .id => d.checkId? earlier m
  | .converter => m.converter.bind (d.checkConverter? m)
  | .vertical => d.checkVertical? m

variable {d : RecordDecl} {earlier members : List MemberDecl} {m : MemberDecl} {rule : MemberRule}
  {e : SchemaError}

/-! ### One rule -/

theorem checkConverter?_of_output {c : ConverterDecl} (h : ¬ c.output.SameButPrefixes m.type) :
    d.checkConverter? m c = some (.invalidConverter d.name m.name c.path
      ("output `" ++ m.type.text ++ "`") ("`" ++ c.output.text ++ "`")) :=
  if_pos fun heq => h ((TypeShape.lastSegments_eq_iff _ _).mp heq)

theorem checkConverter?_of_input {c : ConverterDecl} (h : c.output.SameButPrefixes m.type)
    (hinput : ¬ c.input.IsScalarPrimitive) :
    d.checkConverter? m c = some (.invalidConverter d.name m.name c.path
      "a primitive input (bool, integer, float or string)" ("`" ++ c.input.text ++ "`")) := by
  have hkind : (CollectionKind.of c.input ≠ .scalar ||
      !(SemanticType.of c.input).isPrimitive) = true := by
    simpa [TypeShape.IsScalarPrimitive, imp_iff_not_or] using hinput
  rw [checkConverter?, if_neg (not_not_intro ((TypeShape.lastSegments_eq_iff _ _).mpr h)),
    if_pos hkind]

theorem checkConverter?_of_fits {c : ConverterDecl} (h : c.output.SameButPrefixes m.type)
    (hinput : c.input.IsScalarPrimitive) : d.checkConverter? m c = none := by
  have hkind : ¬ (CollectionKind.of c.input ≠ .scalar ||
      !(SemanticType.of c.input).isPrimitive) = true := by
    simp [hinput.1, hinput.2]
  rw [checkConverter?, if_neg (not_not_intro ((TypeShape.lastSegments_eq_iff _ _).mpr h)),
    if_neg hkind]

/-- The check of a converter finds what the rule says. -/
theorem check?_converter_eq_some_iff :
    d.check? earlier m .converter = some e ↔ d.Breaks earlier m .converter e := by
  constructor
  · intro h
    obtain ⟨c, hc, h⟩ := Option.bind_eq_some_iff.mp h
    by_cases houtput : c.output.SameButPrefixes m.type
    · by_cases hinput : c.input.IsScalarPrimitive
      · cases (checkConverter?_of_fits houtput hinput).symm.trans h
      · obtain rfl := Option.some.inj ((checkConverter?_of_input houtput hinput).symm.trans h)
        exact .input hc houtput hinput
    · obtain rfl := Option.some.inj ((checkConverter?_of_output houtput).symm.trans h)
      exact .output hc houtput
  · intro h
    cases h with
    | output hc houtput => rw [check?, hc, Option.bind_some, checkConverter?_of_output houtput]
    | input hc houtput hinput =>
      rw [check?, hc, Option.bind_some, checkConverter?_of_input houtput hinput]

theorem verticalTarget?_eq_none_iff (hvertical : m.isVertical = true) :
    verticalTarget? m = none ↔ ∀ elem, m.type.SequenceOf elem → elem.ident? = none := by
  simp only [TypeShape.sequenceOf_iff, verticalTarget?, hvertical, Bool.true_and]
  split
  · next hkind =>
    rw [Option.bind_eq_none_iff]
    exact ⟨fun h elem helem => h elem helem.2, fun h elem helem => h elem ⟨hkind, helem⟩⟩
  · next hkind => exact iff_of_true rfl fun _ helem => absurd helem.1 hkind

/-- The check of a vertical member finds what the rule says. -/
theorem check?_vertical_eq_some_iff :
    d.check? earlier m .vertical = some e ↔ d.Breaks earlier m .vertical e := by
  rw [check?, checkVertical?]
  constructor
  · intro h
    split at h
    · next hfault =>
      obtain ⟨hvertical, hnone⟩ := Bool.and_eq_true_iff.mp hfault
      cases h
      exact .vertical hvertical
        ((verticalTarget?_eq_none_iff hvertical).mp (Option.isNone_iff_eq_none.mp hnone))
    · cases h
  · intro h
    cases h with
    | vertical hvertical hnone =>
      rw [if_pos]
      rw [hvertical, (verticalTarget?_eq_none_iff hvertical).mpr hnone]
      rfl

/-- What a check finds breaks its rule. -/
theorem breaks_of_check? (h : d.check? earlier m rule = some e) : d.Breaks earlier m rule e := by
  cases rule with
  | accessor =>
    obtain ⟨other, hfind, rfl⟩ := Option.map_eq_some_iff.mp h
    have hname := List.find?_some hfind
    exact .accessor (List.mem_of_find?_eq_some hfind) (beq_iff_eq.mp hname)
  | id =>
    simp only [check?, checkId?] at h
    split at h
    · next hmember =>
      obtain ⟨other, hfind, rfl⟩ := Option.map_eq_some_iff.mp h
      exact .id (List.mem_of_find?_eq_some hfind) (List.find?_some hfind) hmember
    · cases h
  | converter => exact check?_converter_eq_some_iff.mp h
  | vertical => exact check?_vertical_eq_some_iff.mp h

/-- A check finds something if its rule is broken, perhaps with another member than this one. -/
theorem isSome_check? (h : d.Breaks earlier m rule e) : (d.check? earlier m rule).isSome := by
  cases rule with
  | accessor =>
    cases h with
    | accessor hother hname =>
      rw [check?, checkAccessor?, Option.isSome_map, List.find?_isSome]
      exact ⟨_, hother, beq_iff_eq.mpr hname⟩
  | id =>
    cases h with
    | id hother hid hmember =>
      rw [check?, checkId?, if_pos hmember, Option.isSome_map, List.find?_isSome]
      exact ⟨_, hother, hid⟩
  | converter => exact Option.isSome_of_eq_some (check?_converter_eq_some_iff.mpr h)
  | vertical => exact Option.isSome_of_eq_some (check?_vertical_eq_some_iff.mpr h)

theorem check?_eq_none_iff :
    d.check? earlier m rule = none ↔ ∀ e, ¬ d.Breaks earlier m rule e := by
  constructor
  · intro h e hbreaks
    have hsome := isSome_check? hbreaks
    rw [h] at hsome
    cases hsome
  · intro h
    exact Option.eq_none_iff_forall_not_mem.mpr fun e he => h e (breaks_of_check? he)

/-! ### One member -/

theorem memberFault?_eq_none_iff :
    d.memberFault? earlier m = none ↔ ∀ rule, d.check? earlier m rule = none := by
  simp only [memberFault?, Option.or_eq_none_iff]
  constructor
  · rintro ⟨haccessor, hid, hconverter, hvertical⟩ rule
    cases rule <;> assumption
  · exact fun h => ⟨h .accessor, h .id, h .converter, h .vertical⟩

/-- The fault of a member is what the first check finds that finds something. -/
theorem memberFault?_eq_some_iff : d.memberFault? earlier m = some e ↔
    ∃ rule, d.check? earlier m rule = some e ∧
      ∀ rule' : MemberRule, rule'.rank < rule.rank → d.check? earlier m rule' = none := by
  simp only [memberFault?, Option.or_eq_some_iff]
  constructor
  · rintro (haccessor | ⟨haccessor, hid | ⟨hid, hconverter | ⟨hconverter, hvertical⟩⟩⟩)
    · exact ⟨.accessor, haccessor, fun rule' hlt => absurd hlt (Nat.not_lt_zero _)⟩
    · refine ⟨.id, hid, fun rule' hlt => ?_⟩
      cases rule' <;> first | assumption | exact absurd hlt (by decide)
    · refine ⟨.converter, hconverter, fun rule' hlt => ?_⟩
      cases rule' <;> first | assumption | exact absurd hlt (by decide)
    · refine ⟨.vertical, hvertical, fun rule' hlt => ?_⟩
      cases rule' <;> first | assumption | exact absurd hlt (by decide)
  · rintro ⟨rule, hrule, hbefore⟩
    cases rule with
    | accessor => exact Or.inl hrule
    | id => exact Or.inr ⟨hbefore .accessor (by decide), Or.inl hrule⟩
    | converter =>
      exact Or.inr ⟨hbefore .accessor (by decide), Or.inr ⟨hbefore .id (by decide), Or.inl hrule⟩⟩
    | vertical =>
      exact Or.inr ⟨hbefore .accessor (by decide), Or.inr ⟨hbefore .id (by decide),
        Or.inr ⟨hbefore .converter (by decide), hrule⟩⟩⟩

/-! ### All members -/

/-- Members have no fault if each of them has none behind those in front of it. -/
theorem faultFrom?_eq_none_iff : d.faultFrom? earlier members = none ↔
    ∀ i m, members[i]? = some m → d.memberFault? (earlier ++ members.take i) m = none := by
  induction members generalizing earlier with
  | nil => simp [faultFrom?]
  | cons first rest ih =>
    rw [faultFrom?]
    constructor
    · intro h
      split at h
      · cases h
      · next hfirst =>
        rintro (_ | i) m hm
        · cases hm
          simpa using hfirst
        · simpa using ih.mp h i m hm
    · intro h
      have hfirst := h 0 first rfl
      rw [List.take_zero, List.append_nil] at hfirst
      rw [hfirst]
      refine ih.mpr fun i m hm => ?_
      simpa using h (i + 1) m hm

/-- The fault of members is that of the first one that has any. -/
theorem faultFrom?_eq_some_iff : d.faultFrom? earlier members = some e ↔
    ∃ i m, members[i]? = some m ∧ d.memberFault? (earlier ++ members.take i) m = some e ∧
      ∀ j < i, ∀ m', members[j]? = some m' →
        d.memberFault? (earlier ++ members.take j) m' = none := by
  -- on the members still to be checked: those before them have no fault
  induction members generalizing earlier with
  | nil => simp [faultFrom?]
  | cons first rest ih =>
    rw [faultFrom?]
    constructor
    · intro h
      split at h
      · next hfirst =>
        cases h
        exact ⟨0, first, rfl, by simpa using hfirst, fun j hj => absurd hj (Nat.not_lt_zero j)⟩
      · next hfirst =>
        obtain ⟨i, m, hm, hfault, hbefore⟩ := ih.mp h
        refine ⟨i + 1, m, hm, by simpa using hfault, ?_⟩
        rintro (_ | j) hj m' hm'
        · cases hm'
          simpa using hfirst
        · simpa using hbefore j (Nat.lt_of_succ_lt_succ hj) m' hm'
    · rintro ⟨_ | i, m, hm, hfault, hbefore⟩
      · cases hm
        rw [List.take_zero, List.append_nil] at hfault
        rw [hfault]
      · have hfirst := hbefore 0 (Nat.succ_pos i) first rfl
        rw [List.take_zero, List.append_nil] at hfirst
        rw [hfirst]
        refine ih.mpr ⟨i, m, hm, by simpa using hfault, fun j hj m' hm' => ?_⟩
        simpa using hbefore (j + 1) (Nat.succ_lt_succ hj) m' hm'

/-! ### Declarations -/

theorem breaksAt_iff {i : Nat} (hm : d.dataMembers[i]? = some m) :
    d.BreaksAt i rule e ↔ d.Breaks (d.dataMembers.take i) m rule e := by
  constructor
  · rintro ⟨m', hm', hbreaks⟩
    rwa [Option.some.inj (hm.symm.trans hm')]
  · exact fun hbreaks => ⟨m, hm, hbreaks⟩

/-- A member has no fault if it breaks no rule. -/
theorem memberFault?_eq_none_iff_breaksAt {i : Nat} (hm : d.dataMembers[i]? = some m) :
    d.memberFault? (d.dataMembers.take i) m = none ↔ ∀ rule e, ¬ d.BreaksAt i rule e := by
  simp only [memberFault?_eq_none_iff, check?_eq_none_iff, breaksAt_iff hm]

/-- If members that have something break a rule behind each other, and none of those in front of a
position does, then at most one of them has it. -/
theorem eq_of_mem_take {P : MemberDecl → Prop} {i : Nat}
    (h : ∀ j < i, ∀ m, members[j]? = some m → P m → ∀ other ∈ members.take j, ¬ P other)
    {a b : MemberDecl} (ha : a ∈ members.take i) (hb : b ∈ members.take i) (hPa : P a)
    (hPb : P b) : a = b := by
  obtain ⟨j, hj⟩ := List.mem_iff_getElem?.mp ha
  obtain ⟨k, hk⟩ := List.mem_iff_getElem?.mp hb
  have hlt : ∀ {j : Nat} {x : MemberDecl}, (members.take i)[j]? = some x →
      j < i ∧ members[j]? = some x := fun hx => by
    rw [List.getElem?_take] at hx
    split at hx
    · next hlt => exact ⟨hlt, hx⟩
    · cases hx
  have hmem : ∀ {j k : Nat} {x : MemberDecl}, members[j]? = some x → j < k →
      x ∈ members.take k := fun hx hjk =>
    List.mem_of_getElem? ((List.getElem?_take_of_lt hjk).trans hx)
  obtain ⟨hji, hj⟩ := hlt hj
  obtain ⟨hki, hk⟩ := hlt hk
  -- of two places, the later one would repeat the earlier
  obtain hjk | rfl | hkj := Nat.lt_trichotomy j k
  · exact absurd hPa (h k hki b hk hPb a (hmem hj hjk))
  · exact Option.some.inj (hj.symm.trans hk)
  · exact absurd hPb (h j hji a hj hPa b (hmem hk hkj))

/-- Behind members without faults, a rule is broken with one error at most, and this is what its
check finds. -/
theorem check?_eq_of_breaksAt {i : Nat} (hm : d.dataMembers[i]? = some m)
    (hbefore : ∀ j < i, ∀ rule e, ¬ d.BreaksAt j rule e) (h : d.BreaksAt i rule e) :
    d.check? (d.dataMembers.take i) m rule = some e := by
  have hbreaks := (breaksAt_iff hm).mp h
  obtain ⟨found, hfound⟩ := Option.isSome_iff_exists.mp (isSome_check? hbreaks)
  rw [hfound]
  have hfoundBreaks := breaks_of_check? hfound
  -- the first two rules name another member; were there two, the later one would break the rule
  cases rule with
  | accessor =>
    obtain ⟨hother, hname⟩ := hbreaks
    obtain ⟨hother', hname'⟩ := hfoundBreaks
    rw [eq_of_mem_take (P := fun other => propertyName other.name = propertyName m.name) ?_ hother'
      hother hname' hname]
    intro j hj x hx hxname y hy hyname
    exact hbefore j hj .accessor _ ⟨x, hx, .accessor hy (hyname.trans hxname.symm)⟩
  | id =>
    obtain _ | ⟨hother, hid, -⟩ := hbreaks
    obtain _ | ⟨hother', hid', -⟩ := hfoundBreaks
    rw [eq_of_mem_take (P := fun other => other.isId = true) ?_ hother' hother hid' hid]
    intro j hj x hx hxid y hy hyid
    exact hbefore j hj .id _ ⟨x, hx, .id hy hyid hxid⟩
  | converter =>
    rw [← hfound]
    exact check?_converter_eq_some_iff.mpr hbreaks
  | vertical =>
    rw [← hfound]
    exact check?_vertical_eq_some_iff.mpr hbreaks

/-- A declaration has no fault if no data member breaks a rule. -/
theorem fault?_eq_none_iff : d.fault? = none ↔ ∀ i rule e, ¬ d.BreaksAt i rule e := by
  rw [fault?, faultFrom?_eq_none_iff]
  constructor
  · rintro h i rule e ⟨m, hm, hbreaks⟩
    exact (memberFault?_eq_none_iff_breaksAt hm).mp (h i m hm) rule e ⟨m, hm, hbreaks⟩
  · exact fun h i m hm => (memberFault?_eq_none_iff_breaksAt hm).mpr (h i)

/-- The fault of a declaration is that of the first data member that breaks a rule, and of the first
rule that it breaks. -/
theorem fault?_eq_some_iff : d.fault? = some e ↔ ∃ i rule, d.BreaksAt i rule e ∧
    (∀ j < i, ∀ rule' e', ¬ d.BreaksAt j rule' e') ∧
    ∀ rule' e', d.BreaksAt i rule' e' → rule.rank ≤ rule'.rank := by
  rw [fault?, faultFrom?_eq_some_iff]
  simp only [List.nil_append]
  constructor
  -- the first member at fault, and of its rules the one checked first
  · rintro ⟨i, m, hm, hfault, hbefore⟩
    obtain ⟨rule, hcheck, hleast⟩ := memberFault?_eq_some_iff.mp hfault
    refine ⟨i, rule, (breaksAt_iff hm).mpr (breaks_of_check? hcheck), ?_, fun rule' e' h => ?_⟩
    · rintro j hj rule' e' ⟨m', hm', hbreaks⟩
      exact (memberFault?_eq_none_iff_breaksAt hm').mp (hbefore j hj m' hm') rule' e'
        ⟨m', hm', hbreaks⟩
    · refine Nat.le_of_not_lt fun hlt => ?_
      exact check?_eq_none_iff.mp (hleast rule' hlt) e' ((breaksAt_iff hm).mp h)
  · rintro ⟨i, rule, h, hbefore, hleast⟩
    obtain ⟨m, hm, -⟩ := id h
    refine ⟨i, m, hm, memberFault?_eq_some_iff.mpr
      ⟨rule, check?_eq_of_breaksAt hm hbefore h, fun rule' hlt => ?_⟩, fun j hj m' hm' =>
        (memberFault?_eq_none_iff_breaksAt hm').mpr (hbefore j hj)⟩
    refine check?_eq_none_iff.mpr fun e' hbreaks => ?_
    exact absurd (hleast rule' e' ((breaksAt_iff hm).mpr hbreaks)) (Nat.not_le_of_lt hlt)

theorem extract_eq_error_iff : d.extract = .error e ↔ d.fault? = some e := by
  rw [extract]
  cases d.fault? <;> simp

/-- Members are checked against those in front of them, and no others. -/
theorem faultFrom?_with_members (d : RecordDecl) (ms earlier members : List MemberDecl) :
    ({ d with members := ms } : RecordDecl).faultFrom? earlier members =
      d.faultFrom? earlier members := by
  induction members generalizing earlier with
  | nil => rfl
  | cons m rest ih =>
    have hfault : ({ d with members := ms } : RecordDecl).memberFault? earlier m =
        d.memberFault? earlier m := rfl
    rw [faultFrom?, faultFrom?, hfault, ih]

/-- Members without the data marker are listed, and do not matter otherwise. -/
theorem extract_of_dataMembers_eq {ms : List MemberDecl}
    (h : ms.filter MemberDecl.isData = d.dataMembers) :
    ({ d with members := ms } : RecordDecl).extract = d.extract.map fun s =>
      { s with ignored := (ms.filter fun m => !m.isData).map MemberDecl.name } := by
  have hdata : ({ d with members := ms } : RecordDecl).dataMembers = d.dataMembers := h
  have hfault : ({ d with members := ms } : RecordDecl).fault? = d.fault? := by
    rw [fault?, hdata, faultFrom?_with_members, ← fault?]
  rw [extract, extract, hfault]
  cases d.fault? with
  | some fault => rfl
  | none =>
    simp only [schema, hdata, Except.map]
    rfl

end RecordDecl

/-- The descriptor of a data member. -/
structure FieldDescriptor.Describes (d : RecordDecl) (m : MemberDecl) (f : FieldDescriptor) :
    Prop where
  declaredName : f.declaredName = m.name
  propertyName : f.propertyName = TypedSheets.propertyName m.name
  declaredType : f.declaredType = m.type.text
  kind : f.kind = CollectionKind.of m.type
  wireName : f.wireName = d.ownNaming.wireName m.name
  isMutable : f.isMutable = (m.isMutable || d.isMutable)
  isId : f.isId = m.isId
  isVertical : f.isVertical = m.isVertical
  converter : f.converter = m.converter.map RecordDecl.converterSpec

namespace RecordDecl

theorem describes_field (d : RecordDecl) (m : MemberDecl) : (d.field m).Describes d m := by
  rw [field, FieldDescriptor.describe]
  exact ⟨rfl, rfl, rfl, rfl, rfl, rfl, rfl, rfl, rfl⟩

/-- A declaration gives a record exactly if none of its data members breaks a rule. Otherwise the
error is that of the first data member that breaks one, and of the first rule that it breaks: its
property name is that of an earlier data member, it is an id like an earlier one, its converter does
not make its type of a primitive, or it is vertical and no array, list or boxed slice of what a path
names. The record has a descriptor for every data member, in order. Members without the data marker
make no difference to error and record, other than that they are listed as ignored. -/
theorem extract_outcome (d : RecordDecl) :
    ((∃ s, d.extract = .ok s) ↔ ∀ i rule e, ¬ d.BreaksAt i rule e) ∧
    (∀ e, d.extract = .error e ↔ ∃ i rule, d.BreaksAt i rule e ∧
      (∀ j < i, ∀ rule' e', ¬ d.BreaksAt j rule' e') ∧
      ∀ rule' e', d.BreaksAt i rule' e' → rule.rank ≤ rule'.rank) ∧
    (∀ s, d.extract = .ok s →
      List.Forall₂ (FieldDescriptor.Describes d) d.dataMembers s.fields) ∧
    ∀ ms, ms.filter MemberDecl.isData = d.dataMembers →
      ({ d with members := ms } : RecordDecl).extract = d.extract.map fun s =>
        { s with ignored := (ms.filter fun m => !m.isData).map MemberDecl.name } := by
  refine ⟨?_, fun e => extract_eq_error_iff.trans fault?_eq_some_iff, fun s h => ?_,
    fun ms => extract_of_dataMembers_eq⟩
  · simp only [extract_eq_ok_iff, exists_and_left, exists_eq, and_true, fault?_eq_none_iff]
  · obtain ⟨-, rfl⟩ := extract_eq_ok_iff.mp h
    rw [schema, List.forall₂_map_right_iff, List.forall₂_same]
    exact fun m _ => d.describes_field m

/-- A member that has the property name of another one and is a second id is rejected for its
name. -/
example : ({ RecordDecl.named "Hero" with members :=
      [{ MemberDecl.data "_hp" (.named "u32") with isId := true },
        { MemberDecl.data "hp" (.named "u32") with isId := true }] } : RecordDecl).fault? =
    some (.ambiguousAccessor "Hero" "Hp" "_hp" "hp") := by
  decide

end RecordDecl

end TypedSheets
