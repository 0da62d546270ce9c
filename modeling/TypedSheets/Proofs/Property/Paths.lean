import Mathlib.Data.List.Nodup
import TypedSheets.Game.Stages
import TypedSheets.Proofs.Property.Place
import TypedSheets.Proofs.Schema.Levels

/-!
# Paths of properties

The path of a node is the names of the properties on the way to it with dots between them. No name
of a property has a dot: none stands in an identifier, and none comes from a change of case. So the
names can be had again from the path, and as the properties of a record have different names, the
path tells the position of the node. What is found by a path is the node of that path, whatever the
order is in which the nodes are gone through.

## Main definitions

* `Members.namesAt?`, `RecordType.namesAt?` — the names on the way to a position
* `PropertyNode.DescribedBy` — a node has the path and the depth of some names, and the kind of a
  leaf
* `RecordType.Accepted` — the record type and those of its vertical members are extracted

## Main results

* `dot_notMem_propertyName` — no dot in the names of properties
* `Members.describedBy` — the nodes of members are described by the way to them
* `Members.namesAt?_inj` — the names on the way tell the position
* `PropertyNode.find?_eq_some_iff` — what is found by a path
* `RecordType.paths_of_accepted` — the paths of a record type, and what is found by them
-/

namespace TypedSheets

open PropertyNode (descend? descendIn?)

/-! ### Names without a dot -/

namespace Text

theorem ofNat_ne_dot {n : Nat} (h : n ≠ 0x2E) : Char.ofNat n ≠ '.' := by
  rw [Char.ofNat]
  by_cases hvalid : n.isValidChar
  · rw [dif_pos hvalid]
    intro hdot
    exact h (congrArg Char.toNat hdot)
  · rw [dif_neg hvalid]
    decide

/-- A run moves no character below where it moves its first one. -/
theorem lt_of_caseImage {runs : List Table.CaseRun} {k n m : Nat}
    (hruns : ∀ run ∈ runs, (k : Int) < run.first + run.shift) (h : caseImage runs n = some m) :
    k < m := by
  induction runs with
  | nil => cases h
  | cons run rest ih =>
    obtain ⟨hrun, hrest⟩ := List.forall_mem_cons.mp hruns
    rw [caseImage] at h
    split at h
    · next hin =>
      simp only [Bool.and_eq_true, decide_eq_true_eq] at hin
      cases h
      omega
    · exact ih hrest h

theorem dot_notMem_caseForm {long : List (Nat × List Nat)} {runs : List Table.CaseRun} {c : Char}
    (hlong : ∀ form ∈ long, 0x2E ∉ form.2)
    (hruns : ∀ run ∈ runs, ((0x2E : Nat) : Int) < run.first + run.shift) (hc : c ≠ '.') :
    '.' ∉ caseForm long runs c := by
  intro hmem
  rw [caseForm] at hmem
  split at hmem
  · next form hform =>
    obtain ⟨before, after, heq, -⟩ := List.lookup_eq_some_iff.mp hform
    obtain ⟨n, hn, hdot⟩ := List.mem_map.mp hmem
    refine ofNat_ne_dot (fun hsame => ?_) hdot
    exact hlong (c.toNat, form) (by simp [heq]) (hsame ▸ hn)
  · split at hmem
    · next n hn =>
      have hlt := lt_of_caseImage hruns hn
      exact ofNat_ne_dot (Nat.ne_of_gt hlt) (List.mem_singleton.mp hmem).symm
    · exact hc (List.mem_singleton.mp hmem).symm

/-- No other character has a dot in its upper case form. -/
theorem dot_notMem_upperForm {c : Char} (hc : c ≠ '.') : '.' ∉ upperForm c := by
  rw [upperForm]
  split
  · next hascii =>
    have hall : ∀ n : Fin 0x80, Char.ofNat n ≠ '.' → (Char.ofNat n).toUpper ≠ '.' := by
      decide
    have hupper := hall ⟨c.toNat, hascii⟩
    rw [Char.ofNat_toNat] at hupper
    simpa using (hupper hc).symm
  · exact dot_notMem_caseForm (by decide) (by decide +kernel) hc

/-- No other character has a dot in its lower case form. -/
theorem dot_notMem_lowerForm {c : Char} (hc : c ≠ '.') : '.' ∉ lowerForm c := by
  rw [lowerForm]
  split
  · next hascii =>
    have hall : ∀ n : Fin 0x80, Char.ofNat n ≠ '.' → (Char.ofNat n).toLower ≠ '.' := by
      decide
    have hlower := hall ⟨c.toNat, hascii⟩
    rw [Char.ofNat_toNat] at hlower
    simpa using (hlower hc).symm
  · exact dot_notMem_caseForm (by decide) (by decide +kernel) hc

variable {s : List Char}

theorem dot_notMem_upperChars (hs : '.' ∉ s) : '.' ∉ upperChars s := by
  intro hmem
  obtain ⟨c, hc, hdot⟩ := List.mem_flatMap.mp hmem
  exact dot_notMem_upperForm (fun heq => hs (heq ▸ hc)) hdot

theorem dot_notMem_lowerFrom (hs : '.' ∉ s) (before : List Char) : '.' ∉ lowerFrom before s := by
  induction s generalizing before with
  | nil => exact List.not_mem_nil
  | cons c rest ih =>
    rw [List.mem_cons, not_or] at hs
    obtain ⟨hc, hrest⟩ := hs
    rw [lowerFrom, List.mem_append, not_or]
    refine ⟨?_, ih hrest _⟩
    -- the two small sigmas are no dots either
    split
    · split <;> decide
    · exact dot_notMem_lowerForm (Ne.symm hc)

/-- A word without a dot has none in title case. -/
theorem dot_notMem_capitalized {w : List Cluster} (hw : ∀ c ∈ w, '.' ∉ c) :
    '.' ∉ capitalized w := by
  cases w with
  | nil => exact List.not_mem_nil
  | cons c rest =>
    obtain ⟨hc, hrest⟩ := List.forall_mem_cons.mp hw
    rw [capitalized, List.mem_append, not_or]
    refine ⟨dot_notMem_upperChars hc, dot_notMem_lowerFrom ?_ []⟩
    intro hmem
    obtain ⟨d, hd, hdot⟩ := List.mem_flatten.mp hmem
    exact hrest d hd hdot

end Text

/-- A name without a dot has none in title case. -/
theorem Naming.dot_notMem_pascal {s : List Char} (hs : '.' ∉ s) :
    '.' ∉ Naming.pascal.applyChars s := by
  intro hmem
  obtain ⟨w, hw, hdot⟩ := List.mem_flatMap.mp hmem
  refine Text.dot_notMem_capitalized (fun c hc hcdot => hs ?_) hdot
  -- a word is made of clusters of the name
  obtain ⟨hwords, -⟩ := List.mem_filter.mp hw
  obtain h | ⟨h, -⟩ := Text.mem_of_mem_wordsFrom hwords hc
  · cases h
  · rw [← Text.flatten_clusters s]
    exact List.mem_flatten.mpr ⟨c, h, hcdot⟩

/-- No identifier has a dot. -/
theorem Code.dot_notMem_of_isIdentifier {name : String} (h : Code.isIdentifier name = true) :
    '.' ∉ name.toList := by
  intro hmem
  rw [Code.isIdentifier] at h
  cases hname : name.toList with
  | nil =>
    rw [hname] at hmem
    cases hmem
  | cons c rest =>
    rw [hname] at h hmem
    obtain ⟨hstart, hrest⟩ := Bool.and_eq_true_iff.mp h
    obtain rfl | hmem := List.mem_cons.mp hmem
    · revert hstart
      decide
    · have hcontinue := List.all_eq_true.mp hrest '.' hmem
      revert hcontinue
      decide

/-- The logical name of a member has no dot. -/
theorem dot_notMem_propertyName {name : String} (h : Code.isIdentifier name = true) :
    '.' ∉ (propertyName name).toList := by
  have hname := Code.dot_notMem_of_isIdentifier h
  rw [propertyName, Naming.toList_apply]
  refine Naming.dot_notMem_pascal ?_
  cases hstrip : stripFieldPrefix? name with
  | none => exact hname
  | some rest => exact fun hdot => hname (mem_of_stripFieldPrefix? hstrip _ hdot)

/-! ### Names on the way to a position -/

mutual

/-- The names of the properties on the way to a position at or below a member. -/
def MemberType.namesAt? (info : MemberInfo) : MemberType → (position : List Nat) →
    Option (List String)
  | .ignored _, _ => none
  | _, [] => some [propertyName info.name]
  | .rows _ _ ms _, number :: position =>
    (ms.namesAt? number position).map fun names => propertyName info.name :: names
  | _, _ => none

/-- The names of the properties on the way to a position at or below the data member with that
number. -/
def Members.namesAt? : Members → (number : Nat) → (position : List Nat) → Option (List String)
  | .nil, _, _ => none
  | .cons info t rest, number, position =>
    t.pick number (t.namesAt? info position) fun later => rest.namesAt? later position

end

/-- The names of the properties on the way to a position of a record type. -/
def RecordType.namesAt? (r : RecordType) : (position : List Nat) → Option (List String)
  | [] => none
  | number :: position => r.members.namesAt? number position

/-- The logical name of a member is the first one on the way to what is at or below it. -/
theorem MemberType.head_of_namesAt? {info : MemberInfo} {t : MemberType} {position : List Nat}
    {names : List String} (h : t.namesAt? info position = some names) :
    t.isData = true ∧ ∃ below, names = propertyName info.name :: below := by
  cases t with
  | ignored _ => cases h
  | rows form head ms _ =>
    refine ⟨rfl, ?_⟩
    cases position with
    | nil =>
      cases h
      exact ⟨[], rfl⟩
    | cons number position =>
      obtain ⟨below, -, rfl⟩ := Option.map_eq_some_iff.mp h
      exact ⟨below, rfl⟩
  | _ =>
    refine ⟨rfl, ?_⟩
    cases position with
    | nil =>
      cases h
      exact ⟨[], rfl⟩
    | cons _ _ => cases h

/-- The first name on the way is that of a data member. -/
theorem Members.head_of_namesAt? : (ms : Members) → {number : Nat} → {position : List Nat} →
    {names : List String} → ms.namesAt? number position = some names →
    ∃ name ∈ ms.dataNames, ∃ below, names = propertyName name :: below
  | .nil, _, _, _, h => by cases h
  | .cons info t rest, number, position, names, h => by
    rw [namesAt?] at h
    rw [dataNames]
    obtain ⟨hdata, -, hpick⟩ | ⟨later, -, hpick⟩ := t.pick_cases number
    · rw [hpick] at h
      rw [if_pos hdata]
      obtain ⟨-, below, rfl⟩ := MemberType.head_of_namesAt? h
      exact ⟨info.name, List.mem_cons_self, below, rfl⟩
    · rw [hpick] at h
      obtain ⟨name, hname, hbelow⟩ := rest.head_of_namesAt? h
      refine ⟨name, ?_, hbelow⟩
      split
      · exact List.mem_cons_of_mem _ hname
      · exact hname

mutual

theorem MemberType.length_of_namesAt? {info : MemberInfo} : (t : MemberType) →
    {position : List Nat} → {names : List String} → t.namesAt? info position = some names →
    names.length = position.length + 1
  | .ignored _, _, _, h => by cases h
  | .rows form head ms _, [], _, h => by
    cases h
    rfl
  | .rows form head ms _, number :: position, names, h => by
    obtain ⟨below, hbelow, rfl⟩ := Option.map_eq_some_iff.mp h
    rw [List.length_cons, List.length_cons, ms.length_of_namesAt? hbelow]
  | .cell _, [], _, h => by
    cases h
    rfl
  | .converted _, [], _, h => by
    cases h
    rfl
  | .cell _, _ :: _, _, h => by cases h
  | .converted _, _ :: _, _, h => by cases h

/-- There is a name for each record on the way, and one for the property. -/
theorem Members.length_of_namesAt? : (ms : Members) → {number : Nat} → {position : List Nat} →
    {names : List String} → ms.namesAt? number position = some names →
    names.length = position.length + 1
  | .nil, _, _, _, h => by cases h
  | .cons info t rest, number, position, names, h => by
    rw [Members.namesAt?] at h
    obtain ⟨-, -, hpick⟩ | ⟨later, -, hpick⟩ := t.pick_cases number
    · rw [hpick] at h
      exact t.length_of_namesAt? h
    · rw [hpick] at h
      exact rest.length_of_namesAt? h

end

/-! ### Nodes and their names -/

/-- The declared type of a member that is a leaf. -/
def LeafType.shape : LeafType → TypeShape
  | .cell t => t.shape
  | .converted c => c.output.shape

theorem MemberType.name_decl (info : MemberInfo) (t : MemberType) :
    (t.decl info).name = info.name := by
  cases t <;> rfl

namespace RecordDecl

variable (d : RecordDecl) (info : MemberInfo)

theorem propertyName_field (t : MemberType) :
    (d.field (t.decl info)).propertyName = TypedSheets.propertyName info.name := by
  rw [field, FieldDescriptor.describe, t.name_decl]
  rfl

theorem kind_field (m : MemberDecl) : (d.field m).kind = CollectionKind.of m.type :=
  (d.field_eq m).2.1

end RecordDecl

namespace PropertyNode

variable {ρ α : Type}

/-- A node below the root has the path of some names and an index for all but the first. If it is a
leaf, its kind is that of the type of the leaf. -/
structure DescribedBy (m : PropertyNode ρ) (names : List String) (leaf? : Option LeafType) :
    Prop where
  path_eq : m.path = ".".intercalate names
  depth_eq : names.length = m.depth + 1
  descriptor : m.descriptor.isSome = true
  kind_eq : ∀ T, leaf? = some T → m.kind = CollectionKind.of T.shape

/-- The node of a member is named after the member. -/
theorem DescribedBy.single {m : PropertyNode ρ} {f : FieldDescriptor} {name : String}
    {leaf? : Option LeafType} (hname : f.propertyName = name) (hpath : m.path = f.propertyName)
    (hdepth : m.depth = 0) (hdescriptor : m.descriptor = some f)
    (hkind : ∀ T, leaf? = some T → f.kind = CollectionKind.of T.shape) :
    m.DescribedBy [name] leaf? := by
  refine ⟨?_, ?_, ?_, fun T hT => ?_⟩
  · rw [hpath, hname, String.intercalate_singleton]
  · rw [hdepth, List.length_singleton]
  · rw [hdescriptor, Option.isSome_some]
  · rw [kind, hdescriptor]
    exact hkind T hT

/-- Below an element of a list the name of the list comes first. -/
theorem DescribedBy.lift {m : PropertyNode α} {names : List String} {leaf? : Option LeafType}
    (h : m.DescribedBy names leaf?) (e : Elements ρ α) (parent : String) :
    (m.lift e parent).DescribedBy (parent :: names) leaf? := by
  have hne : names ≠ [] := List.ne_nil_of_length_eq_add_one h.depth_eq
  refine ⟨?_, ?_, ?_, fun T hT => ?_⟩
  · rw [path_lift, h.path_eq, String.intercalate_cons_of_ne_nil hne]
  · rw [depth_lift, List.length_cons, h.depth_eq]
  · rw [descriptor_lift, h.descriptor]
  · rw [kind, descriptor_lift]
    exact h.kind_eq T hT

end PropertyNode

mutual

/-- The nodes at and below the node of a member are described by the way to them. -/
theorem MemberType.describedBy {ρ : Type} (d : RecordDecl) (info : MemberInfo) :
    (t : MemberType) → (len : Lens ρ t.El) → ∀ position m,
    descendIn? (t.nodes d info len) (0 :: position) = some m →
      ∃ names, t.namesAt? info position = some names ∧
        m.DescribedBy names (t.leafType? position)
  | .cell t, len, position, m, hm => by
    cases position with
    | nil =>
      cases hm
      refine ⟨_, rfl, .single (d.propertyName_field info (.cell t)) rfl rfl rfl ?_⟩
      rintro _ ⟨⟩
      exact d.kind_field (MemberType.decl info (.cell t))
    | cons number position => cases hm
  | .rows form head ms via, len, position, m, hm => by
    cases position with
    | nil =>
      -- a vertical node is no leaf
      cases hm
      refine ⟨_, rfl, .single (d.propertyName_field info (.rows form head ms via)) rfl rfl rfl ?_⟩
      rintro _ ⟨⟩
    | cons number position =>
      change (PropertyNode.vertical _ _ _).descend? (number :: position) = some m at hm
      rw [PropertyNode.descend?_vertical, d.propertyName_field info (.rows form head ms via)] at hm
      obtain ⟨m, hbelow, rfl⟩ := Option.map_eq_some_iff.mp hm
      obtain ⟨names, hnames, hm⟩ :=
        ms.describedBy (head.decl ms) Lens.whole number position m hbelow
      refine ⟨propertyName info.name :: names, ?_, hm.lift _ _⟩
      rw [MemberType.namesAt?, hnames]
      rfl
  | .converted c, len, position, m, hm => by
    cases position with
    | nil =>
      cases hm
      refine ⟨_, rfl, .single (d.propertyName_field info (.converted c)) rfl rfl rfl ?_⟩
      rintro _ ⟨⟩
      exact d.kind_field (MemberType.decl info (.converted c))
    | cons number position => cases hm
  | .ignored _, _, _, _, hm => by cases hm

/-- The nodes at and below the nodes of members are described by the way to them. -/
theorem Members.describedBy {ρ : Type} (d : RecordDecl) : (ms : Members) →
    (len : Lens ρ ms.El) → ∀ number position m,
    descendIn? (ms.nodes d len) (number :: position) = some m →
      ∃ names, ms.namesAt? number position = some names ∧
        m.DescribedBy names (ms.leafType? number position)
  | .nil, _, _, _, _, hm => by cases hm
  | .cons info t rest, len, number, position, m, hm => by
    rw [Members.descendIn?_nodes] at hm
    rw [Members.namesAt?, Members.leafType?]
    obtain ⟨-, -, hpick⟩ | ⟨later, -, hpick⟩ := t.pick_cases number
    · rw [hpick] at hm
      rw [hpick, hpick]
      exact t.describedBy d info len.first position m hm
    · rw [hpick] at hm
      rw [hpick, hpick]
      exact rest.describedBy d len.second later position m hm

end

/-- Every node below the root is described by the way to it. -/
theorem RecordType.describedBy (r : RecordType) {position : List Nat} {n : PropertyNode r.Row}
    (hn : r.properties.descend? position = some n) (hbelow : position ≠ []) :
    ∃ names, r.namesAt? position = some names ∧ n.DescribedBy names (r.leafType? position) := by
  cases position with
  | nil => exact absurd rfl hbelow
  | cons number below => exact r.members.describedBy r.decl Lens.whole number below n hn

/-! ### The way from the names -/

mutual

/-- The record types of vertical members are extracted, and so on below; names are identifiers. -/
def MemberType.Accepted : MemberType → Prop
  | .rows _ head ms _ => (∃ s, (head.decl ms).extract = .ok s) ∧ ms.Accepted
  | .cell _ => True
  | .converted _ => True
  | .ignored _ => True

/-- The names of data members are identifiers, and the types of vertical ones are extracted. -/
def Members.Accepted : Members → Prop
  | .nil => True
  | .cons info t rest =>
    (t.isData = true → Code.isIdentifier info.name = true) ∧ t.Accepted ∧ rest.Accepted

end

/-- The record type is extracted with those of its vertical members, to any depth, and the names of
data members are identifiers. -/
def RecordType.Accepted (r : RecordType) : Prop :=
  (∃ s, r.decl.extract = .ok s) ∧ r.members.Accepted

/-- In a record that is extracted the data members have different logical names. -/
theorem RecordHead.nodup_dataNames {head : RecordHead} {ms : Members}
    (h : ∃ s, (head.decl ms).extract = .ok s) : (ms.dataNames.map propertyName).Nodup := by
  obtain ⟨s, hs⟩ := h
  rw [Members.dataNames_eq, List.map_map]
  exact RecordDecl.nodup_properties hs

mutual

theorem MemberType.dot_notMem_of_namesAt? {info : MemberInfo} : (t : MemberType) → t.Accepted →
    (t.isData = true → Code.isIdentifier info.name = true) → {position : List Nat} →
    {names : List String} → t.namesAt? info position = some names →
    ∀ name ∈ names, '.' ∉ name.toList
  | .rows form head ms _, ht, hname, number :: position, names, h => by
    obtain ⟨below, hbelow, rfl⟩ := Option.map_eq_some_iff.mp h
    refine List.forall_mem_cons.mpr ⟨dot_notMem_propertyName (hname rfl), ?_⟩
    exact ms.dot_notMem_of_namesAt? ht.2 hbelow
  | .rows form head ms _, _, hname, [], _, h => by
    cases h
    exact List.forall_mem_singleton.mpr (dot_notMem_propertyName (hname rfl))
  | .cell _, _, hname, [], _, h => by
    cases h
    exact List.forall_mem_singleton.mpr (dot_notMem_propertyName (hname rfl))
  | .converted _, _, hname, [], _, h => by
    cases h
    exact List.forall_mem_singleton.mpr (dot_notMem_propertyName (hname rfl))
  | .cell _, _, _, _ :: _, _, h => by cases h
  | .converted _, _, _, _ :: _, _, h => by cases h
  | .ignored _, _, _, _, _, h => by cases h

/-- No name on the way to a position has a dot. -/
theorem Members.dot_notMem_of_namesAt? : (ms : Members) → ms.Accepted → {number : Nat} →
    {position : List Nat} → {names : List String} → ms.namesAt? number position = some names →
    ∀ name ∈ names, '.' ∉ name.toList
  | .nil, _, _, _, _, h => by cases h
  | .cons info t rest, hms, number, position, names, h => by
    obtain ⟨hname, ht, hrest⟩ := hms
    rw [Members.namesAt?] at h
    obtain ⟨-, -, hpick⟩ | ⟨later, -, hpick⟩ := t.pick_cases number
    · rw [hpick] at h
      exact t.dot_notMem_of_namesAt? ht hname h
    · rw [hpick] at h
      exact rest.dot_notMem_of_namesAt? hrest h

end

mutual

theorem MemberType.namesAt?_inj {info : MemberInfo} : (t : MemberType) → t.Accepted →
    {p q : List Nat} → {names : List String} → t.namesAt? info p = some names →
    t.namesAt? info q = some names → p = q
  | .rows form head ms _, ht, i :: p, j :: q, names, hp, hq => by
    obtain ⟨below, hbelow, rfl⟩ := Option.map_eq_some_iff.mp hp
    obtain ⟨below', hbelow', heq⟩ := Option.map_eq_some_iff.mp hq
    obtain rfl := (List.cons.inj heq).2
    obtain ⟨rfl, rfl⟩ := ms.namesAt?_inj ht.2 (RecordHead.nodup_dataNames ht.1) hbelow hbelow'
    rfl
  | _, _, [], [], _, _, _ => rfl
  | t, _, [], _ :: _, _, hp, hq => by
    -- one name against several
    have hlength := t.length_of_namesAt? hp
    rw [t.length_of_namesAt? hq] at hlength
    cases hlength
  | t, _, _ :: _, [], _, hp, hq => by
    have hlength := t.length_of_namesAt? hp
    rw [t.length_of_namesAt? hq] at hlength
    cases hlength
  | .cell _, _, _ :: _, _ :: _, _, hp, _ => by cases hp
  | .converted _, _, _ :: _, _ :: _, _, hp, _ => by cases hp
  | .ignored _, _, _ :: _, _ :: _, _, hp, _ => by cases hp

/-- The names on the way to a position tell the position. -/
theorem Members.namesAt?_inj : (ms : Members) → ms.Accepted →
    (ms.dataNames.map propertyName).Nodup → {i j : Nat} → {p q : List Nat} →
    {names : List String} → ms.namesAt? i p = some names → ms.namesAt? j q = some names →
    i = j ∧ p = q
  | .nil, _, _, _, _, _, _, _, hp, _ => by cases hp
  | .cons info t rest, hms, hnodup, i, j, p, q, names, hp, hq => by
    obtain ⟨-, ht, hrest⟩ := hms
    rw [Members.namesAt?] at hp hq
    rw [Members.dataNames] at hnodup
    -- the first name is that of the first member, and no later one has it
    have hlater : ∀ {later : Nat} {first position : List Nat}, t.isData = true →
        t.namesAt? info first = some names → rest.namesAt? later position = some names → False := by
      intro later first position hdata hfirst hbehind
      rw [if_pos hdata, List.map_cons, List.nodup_cons] at hnodup
      obtain ⟨-, below, rfl⟩ := MemberType.head_of_namesAt? hfirst
      obtain ⟨name, hname, below', heq⟩ := rest.head_of_namesAt? hbehind
      rw [(List.cons.inj heq).1] at hnodup
      exact hnodup.1 (List.mem_map_of_mem hname)
    have hbehind : (rest.dataNames.map propertyName).Nodup := by
      split at hnodup
      · exact (List.nodup_cons.mp hnodup).2
      · exact hnodup
    obtain ⟨hdata, rfl, hpick⟩ | ⟨i, rfl, hpick⟩ := t.pick_cases i
    · rw [hpick] at hp
      obtain ⟨-, rfl, hpick'⟩ | ⟨j, -, hpick'⟩ := t.pick_cases j
      · rw [hpick'] at hq
        exact ⟨rfl, t.namesAt?_inj ht hp hq⟩
      · rw [hpick'] at hq
        exact (hlater hdata hp hq).elim
    · rw [hpick] at hp
      obtain ⟨hdata, -, hpick'⟩ | ⟨j, rfl, hpick'⟩ := t.pick_cases j
      · rw [hpick'] at hq
        exact (hlater hdata hq hp).elim
      · rw [hpick'] at hq
        obtain ⟨rfl, rfl⟩ := rest.namesAt?_inj hrest hbehind hp hq
        exact ⟨rfl, rfl⟩

end

/-- Lists of names without dots are told apart with dots between them. -/
theorem intercalate_dot_inj {xs ys : List String} (hxs : ∀ x ∈ xs, '.' ∉ x.toList)
    (hys : ∀ y ∈ ys, '.' ∉ y.toList) (hx : xs ≠ []) (hy : ys ≠ [])
    (h : ".".intercalate xs = ".".intercalate ys) : xs = ys := by
  have hsplit : ∀ zs : List String, (∀ z ∈ zs, '.' ∉ z.toList) → zs ≠ [] →
      (".".intercalate zs).toList.splitOn '.' = zs.map String.toList := by
    intro zs hzs hz
    rw [String.toList_intercalate]
    refine List.splitOn_intercalate '.' ?_ (by simpa using hz)
    exact List.forall_mem_map.mpr hzs
  have hchars := hsplit xs hxs hx
  rw [h, hsplit ys hys hy] at hchars
  exact (List.map_injective_iff.mpr (fun _ _ => String.toList_injective) hchars).symm

/-! ### Finding a node by its path -/

namespace PropertyNode

variable {ρ : Type} {wanted : String} {m : PropertyNode ρ}

mutual

/-- What is found in a tree stands in it, has the path and stands for a member. -/
theorem exists_of_find? : (n : PropertyNode ρ) → n.find? wanted = some m →
    ∃ position, n.descend? position = some m ∧ m.path = wanted ∧ m.descriptor.isSome = true
  | .mk path descriptor depth access children, h => by
    rw [find?] at h
    split at h
    · next hhere =>
      cases h
      obtain ⟨hpath, hdescriptor⟩ := Bool.and_eq_true_iff.mp hhere
      exact ⟨[], rfl, beq_iff_eq.mp hpath, hdescriptor⟩
    · obtain ⟨i, position, hm, hwanted⟩ := exists_of_findLast? children h
      exact ⟨i :: position, hm, hwanted⟩

theorem exists_of_findLast? : (ns : List (PropertyNode ρ)) → findLast? wanted ns = some m →
    ∃ i position, descendIn? ns (i :: position) = some m ∧ m.path = wanted ∧
      m.descriptor.isSome = true
  | [], h => by cases h
  | n :: rest, h => by
    rw [findLast?] at h
    split at h
    · next found hfound =>
      cases h
      obtain ⟨i, position, hm, hwanted⟩ := exists_of_findLast? rest hfound
      exact ⟨i + 1, position, hm, hwanted⟩
    · obtain ⟨position, hm, hwanted⟩ := exists_of_find? n h
      exact ⟨0, position, hm, hwanted⟩

end

mutual

/-- Where a tree has a node of the path that stands for a member, something is found. -/
theorem isSome_find? : (n : PropertyNode ρ) → ∀ position, n.descend? position = some m →
    m.path = wanted → m.descriptor.isSome = true → (n.find? wanted).isSome = true
  | .mk path descriptor depth access children, position, hm, hwanted, hdescriptor => by
    rw [find?]
    split
    · rfl
    · next hhere =>
      cases position with
      | nil =>
        -- the node itself has another path or stands for no member
        cases hm
        exact absurd (Bool.and_eq_true_iff.mpr ⟨beq_iff_eq.mpr hwanted, hdescriptor⟩) hhere
      | cons i position => exact isSome_findLast? children i position hm hwanted hdescriptor

theorem isSome_findLast? : (ns : List (PropertyNode ρ)) → ∀ i position,
    descendIn? ns (i :: position) = some m → m.path = wanted → m.descriptor.isSome = true →
    (findLast? wanted ns).isSome = true
  | [], _, _, hm, _, _ => by cases hm
  | n :: rest, i, position, hm, hwanted, hdescriptor => by
    rw [findLast?]
    split
    · rfl
    · next hnone =>
      cases i with
      | zero => exact isSome_find? n position hm hwanted hdescriptor
      | succ i =>
        have hrest := isSome_findLast? rest i position hm hwanted hdescriptor
        rw [hnone] at hrest
        cases hrest

end

/-- If the nodes that stand for members have different paths, each is found by its path, and
nothing else is found. -/
theorem find?_eq_some_iff {n : PropertyNode ρ}
    (hpaths : ∀ {p q a b}, n.descend? p = some a → n.descend? q = some b →
      a.descriptor.isSome = true → b.descriptor.isSome = true → a.path = b.path → p = q) :
    n.find? wanted = some m ↔
      ∃ p, n.descend? p = some m ∧ m.path = wanted ∧ m.descriptor.isSome = true := by
  constructor
  · intro h
    exact exists_of_find? n h
  · rintro ⟨p, hm, rfl, hdescriptor⟩
    obtain ⟨found, hfound⟩ :=
      Option.isSome_iff_exists.mp (isSome_find? n p hm rfl hdescriptor)
    obtain ⟨q, hq, hpath, hfoundDescriptor⟩ := exists_of_find? n hfound
    -- both have the path, so they stand at one position
    obtain rfl := hpaths hm hq hdescriptor hfoundDescriptor hpath.symm
    obtain rfl := Option.some.inj (hm.symm.trans hq)
    exact hfound

end PropertyNode

/-! ### Record types -/

namespace RecordType

variable {r : RecordType}

/-- What stands for a member is below the root. -/
theorem isSome_descriptor_iff {position : List Nat} {n : PropertyNode r.Row}
    (hn : r.properties.descend? position = some n) :
    n.descriptor.isSome = true ↔ position ≠ [] := by
  constructor
  · rintro hdescriptor rfl
    cases hn
    cases hdescriptor
  · intro hbelow
    obtain ⟨names, -, hnamed⟩ := r.describedBy hn hbelow
    exact hnamed.descriptor

/-- Nodes of one path stand at one position. -/
theorem position_of_path (hr : r.Accepted) {p q : List Nat} {n m : PropertyNode r.Row}
    (hn : r.properties.descend? p = some n) (hm : r.properties.descend? q = some m)
    (hp : p ≠ []) (hq : q ≠ []) (hpath : n.path = m.path) : p = q := by
  obtain ⟨hextract, hmembers⟩ := hr
  obtain ⟨names, hnames, hnamed⟩ := r.describedBy hn hp
  obtain ⟨names', hnames', hnamed'⟩ := r.describedBy hm hq
  cases p with
  | nil => exact absurd rfl hp
  | cons i p =>
    cases q with
    | nil => exact absurd rfl hq
    | cons j q =>
      -- the names are read off the path
      have hsame : names = names' := by
        rw [hnamed.path_eq, hnamed'.path_eq] at hpath
        exact intercalate_dot_inj (r.members.dot_notMem_of_namesAt? hmembers hnames)
          (r.members.dot_notMem_of_namesAt? hmembers hnames')
          (List.ne_nil_of_length_eq_add_one hnamed.depth_eq)
          (List.ne_nil_of_length_eq_add_one hnamed'.depth_eq) hpath
      obtain ⟨rfl, rfl⟩ := r.members.namesAt?_inj hmembers (RecordHead.nodup_dataNames hextract)
        (hsame ▸ hnames) hnames'
      rfl

/-- Below the root of the tree of an accepted record type no two nodes have one path. By a path is
found the node below the root that has it, and nothing if there is none; the root is never found,
also by the name of the record. -/
theorem paths_of_accepted (hr : r.Accepted) :
    (∀ {p q n m}, p ≠ [] → q ≠ [] → r.properties.descend? p = some n →
      r.properties.descend? q = some m → n.path = m.path → p = q) ∧
    (∀ path n, r.properties.find? path = some n ↔
      ∃ p, p ≠ [] ∧ r.properties.descend? p = some n ∧ n.path = path) ∧
    ∀ path, r.properties.find? path = none ↔
      ∀ p n, p ≠ [] → r.properties.descend? p = some n → n.path ≠ path := by
  -- the search gives the first node of a path, and no two nodes have one path
  have hfind : ∀ path n, r.properties.find? path = some n ↔
      ∃ p, p ≠ [] ∧ r.properties.descend? p = some n ∧ n.path = path := by
    intro path n
    rw [PropertyNode.find?_eq_some_iff fun hn hm hn' hm' => position_of_path hr hn hm
      ((isSome_descriptor_iff hn).mp hn') ((isSome_descriptor_iff hm).mp hm')]
    constructor
    · rintro ⟨p, hn, hpath, hdescriptor⟩
      exact ⟨p, (isSome_descriptor_iff hn).mp hdescriptor, hn, hpath⟩
    · rintro ⟨p, hbelow, hn, hpath⟩
      exact ⟨p, hn, hpath, (isSome_descriptor_iff hn).mpr hbelow⟩
  refine ⟨fun hp hq hn hm => position_of_path hr hn hm hp hq, hfind, fun path => ?_⟩
  rw [Option.eq_none_iff_forall_ne_some]
  constructor
  · intro hnone p n hbelow hn hpath
    exact hnone n ((hfind path n).mpr ⟨p, hbelow, hn, hpath⟩)
  · intro hnone n hn
    obtain ⟨p, hbelow, hn, hpath⟩ := (hfind path n).mp hn
    exact hnone p n hbelow hn hpath

/-- In the tree of a stage no two nodes have one path, and the counts of the heroes in its waves are
found by theirs; by the name of the record nothing is found. -/
theorem paths_of_accepted_stage :
    (∀ {p q n m}, p ≠ [] → q ≠ [] → Game.stage.record.properties.descend? p = some n →
      Game.stage.record.properties.descend? q = some m → n.path = m.path → p = q) ∧
    Game.stage.record.properties.find? "Waves.Spawns.Count" =
      Game.stage.record.properties.descend? [1, 0, 1] ∧
    Game.stage.record.properties.find? "Stage" = none := by
  have hspawn : Game.spawn.members.Accepted :=
    ⟨fun _ => by decide, trivial, fun _ => by decide, trivial, trivial⟩
  have hwave : Game.wave.members.Accepted :=
    ⟨fun _ => by decide, ⟨⟨_, RecordDecl.extract_of_isNone (by decide)⟩, hspawn⟩,
      fun _ => by decide, trivial, fun _ => by decide +kernel, trivial, trivial⟩
  have hstage : Game.stage.record.Accepted :=
    ⟨⟨_, RecordDecl.extract_of_isNone (by decide +kernel)⟩, fun _ => by decide, trivial,
      fun _ => by decide, ⟨⟨_, RecordDecl.extract_of_isNone (by decide +kernel)⟩, hwave⟩,
      fun _ => by decide, trivial, trivial⟩
  obtain ⟨hpaths, hfind, -⟩ := RecordType.paths_of_accepted hstage
  refine ⟨hpaths, ?_, ?_⟩
  · exact (hfind _ _).mpr ⟨[1, 0, 1], by decide, rfl, by decide +kernel⟩
  · exact Option.isNone_iff_eq_none.mp (by decide +kernel)

end RecordType

end TypedSheets
