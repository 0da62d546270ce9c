import Mathlib.Data.List.Pairwise
import TypedSheets.Code.Template
import TypedSheets.Game.Gear
import TypedSheets.Proofs.Schema.Columns
import TypedSheets.Schema.Accessor

/-!
# Methods of a record

The getter of a member is named after its logical name in snake case, and the setter has `set_` in
front of that. Extraction looks at the logical names only: `x_y` and `xy` have different ones and
the same getter, and the getter of a member `set_hp` is the setter of `hp`. The methods differ if
the logical names do under title case, and none of them is that of a member with a setter behind
`Set`.

A getter that is written by hand leaves out the accessor of its member, the setter with it. So a
mutable member has a setter, its own or one written by hand, except where its getter is written by
hand and its setter is not. A setter that is lost in this way is not among the members left out.

## Main definitions

* `GeneratedMembers.methods` — the methods that a record gains
* `Accessor.Named` — an accessor whose methods are named after its member
* `RecordDecl.methodsOf` — the methods that a record gains for a member
* `GeneratedMembers.HasSetter` — a record gains a setter for a member
* `RecordDecl.Replaceable` — a member is mutable by its own mark or by that of its record

## Main results

* `GeneratedMembers.nodup_methods_iff` — the methods differ if the getters do and none is a setter
* `RecordSchema.named_of_generate`, `RecordSchema.fields_sublist` — what accessors are named after
* `RecordDecl.methods_eq` — the methods that a record gains are those of its members
* `RecordDecl.methods_of_extract` — when the methods of a record that is extracted differ
* `RecordDecl.methods_collide` — extracted records that gain a method twice
* `RecordSchema.hasSetter_iff` — the members for which a record gains a setter
* `RecordSchema.mem_userImpls_of_mem_skipped` — what is left out is written by hand
* `RecordDecl.setters_of_extract` — the setters of records that are extracted
* `RecordDecl.setter_lost_of_extract` — a mutable member without a setter
-/

namespace TypedSheets

/-! ### Accessors -/

/-- The methods of an accessor. -/
def Accessor.methods (a : Accessor) : List String := a.getter :: a.setter.toList

/-- The methods of the accessors that a record gains, in order. -/
def GeneratedMembers.methods (g : GeneratedMembers) : List String :=
  g.accessors.flatMap Accessor.methods

/-- The methods are named after the member. -/
structure Accessor.Named (a : Accessor) : Prop where
  getter : a.getter = getterName a.field
  setter : ∀ name, a.setter = some name → name = "set_" ++ a.getter

/-- A setter is no getter of the same member: its name is longer. -/
theorem Accessor.Named.nodup_methods {a : Accessor} (h : a.Named) : a.methods.Nodup := by
  rw [methods]
  cases hset : a.setter with
  | none => exact List.nodup_singleton _
  | some name =>
    have hname := h.setter name hset
    refine List.nodup_cons.mpr ⟨fun hmem => ?_, List.nodup_singleton _⟩
    have hlength := congrArg String.length ((List.mem_singleton.mp hmem).trans hname)
    rw [String.length_append] at hlength
    have hprefix : "set_".length = 4 := rfl
    omega

/-- The methods of accessors differ if and only if the getters do and none of them is a setter. -/
theorem GeneratedMembers.nodup_methods_iff {g : GeneratedMembers}
    (hnamed : ∀ a ∈ g.accessors, a.Named) :
    g.methods.Nodup ↔ (g.accessors.map Accessor.getter).Nodup ∧
      ∀ a ∈ g.accessors, ∀ b ∈ g.accessors, b.setter ≠ some a.getter := by
  rw [methods, List.nodup_flatMap, List.nodup_iff_pairwise_ne, List.pairwise_map]
  constructor
  · rintro ⟨-, hapart⟩
    refine ⟨hapart.imp fun hdisjoint heq => ?_, fun a ha b hb hset => ?_⟩
    · exact List.disjoint_left.mp hdisjoint List.mem_cons_self (heq ▸ List.mem_cons_self)
    · have hsetter : a.getter ∈ b.methods := by simp [Accessor.methods, hset]
      by_cases hsame : a = b
      · -- a getter is shorter than its own setter
        subst hsame
        have hnodup := (hnamed a ha).nodup_methods
        simp [Accessor.methods, hset] at hnodup
      · have hsymm : Std.Symm (Function.onFun List.Disjoint Accessor.methods) :=
          ⟨fun _ _ => List.disjoint_symm⟩
        exact List.disjoint_left.mp (hapart.forall ha hb hsame) List.mem_cons_self hsetter
  · rintro ⟨hgetters, hsetters⟩
    refine ⟨fun a ha => (hnamed a ha).nodup_methods, hgetters.imp_of_mem ?_⟩
    intro a b ha hb hne name hname hname'
    -- a shared name is a getter or a setter on either side
    rcases List.mem_cons.mp hname with rfl | hset
    · rcases List.mem_cons.mp hname' with heq | hset'
      · exact hne heq
      · exact hsetters a ha b hb (Option.mem_toList.mp hset')
    · rcases List.mem_cons.mp hname' with rfl | hset'
      · exact hsetters b hb a ha (Option.mem_toList.mp hset)
      · -- two setters of one name have getters of one name
        have hlong := (hnamed a ha).setter name (Option.mem_toList.mp hset)
        have hlong' := (hnamed b hb).setter name (Option.mem_toList.mp hset')
        exact hne (String.append_right_inj _ |>.mp (hlong.symm.trans hlong'))

namespace RecordSchema

variable {s : RecordSchema} {f : FieldDescriptor} {a : Accessor} {g : GeneratedMembers}

/-- The accessor of a member has methods that are named after it and not written by hand. -/
theorem named_of_accessor (h : (s.accessor f).1 = some a) :
    a.field = f.declaredName ∧ a.Named ∧ ∀ name ∈ a.methods, s.isUserImplemented name = false := by
  rw [accessor] at h
  dsimp only at h
  split at h
  · cases h
  · next hgetter =>
    obtain rfl := Option.some.inj h
    refine ⟨rfl, ⟨rfl, fun name hname => ?_⟩, fun name hname => ?_⟩
    · dsimp only at hname
      split at hname
      · exact (Option.some.inj hname).symm
      · cases hname
    · rcases List.mem_cons.mp hname with rfl | hname
      · exact Bool.eq_false_iff.mpr hgetter
      · dsimp only at hname
        split at hname
        · next hset =>
          obtain ⟨-, hset⟩ := (Bool.and_eq_true _ _).mp hset
          obtain rfl := List.mem_singleton.mp hname
          simpa using hset
        · cases hname

theorem accessors_of_generate (h : s.generate = .ok g) :
    g.accessors = s.fields.filterMap fun f => (s.accessor f).1 := by
  rw [generate] at h
  split at h
  · cases h
  · dsimp only at h
    split at h
    · cases h
    · obtain rfl := Except.ok.inj h
      exact List.filterMap_map

/-- What is known of an accessor that a record gains. -/
theorem named_of_generate (h : s.generate = .ok g) (ha : a ∈ g.accessors) :
    a.Named ∧ ∀ name ∈ a.methods, s.isUserImplemented name = false := by
  rw [accessors_of_generate h] at ha
  obtain ⟨f, -, hf⟩ := List.mem_filterMap.mp ha
  exact (named_of_accessor hf).2

/-- The accessors follow the members, some of which may have none. -/
theorem fields_sublist (h : s.generate = .ok g) :
    (g.accessors.map Accessor.field).Sublist (s.fields.map FieldDescriptor.declaredName) := by
  rw [accessors_of_generate h]
  induction s.fields with
  | nil => exact List.Sublist.slnil
  | cons f rest ih =>
    rw [List.filterMap_cons, List.map_cons]
    cases hf : (s.accessor f).1 with
    | none => exact ih.cons _
    | some a =>
      rw [List.map_cons, (named_of_accessor hf).1]
      exact ih.cons_cons _

end RecordSchema

/-! ### Records -/

/-- Names that are written as the same identifier are the same. -/
theorem Code.memberName?_inj {a b : String} {t : Code.Token} (ha : Code.memberName? a = some t)
    (hb : Code.memberName? b = some t) : a = b := by
  have hname : ∀ {name : String}, Code.memberName? name = some t → ∃ raw, t = .ident name raw := by
    intro name h
    rw [Code.memberName?] at h
    split at h
    · cases h
    split at h
    · exact ⟨false, (Option.some.inj h).symm⟩
    split at h
    · cases h
    · exact ⟨true, (Option.some.inj h).symm⟩
  obtain ⟨raw, rfl⟩ := hname ha
  obtain ⟨raw', heq⟩ := hname hb
  injection heq

namespace RecordDecl

variable {d : RecordDecl} {s : RecordSchema} {g : GeneratedMembers}

theorem isMutable_field (d : RecordDecl) (m : MemberDecl) :
    (d.field m).isMutable = (m.isMutable || d.isMutable) := by
  rw [field, FieldDescriptor.describe]
  rfl

/-- The methods that a record gains for a member, those left out that are written by hand. -/
def methodsOf (d : RecordDecl) (m : MemberDecl) : List String :=
  if d.userImpls.contains (getterName m.name) then []
  else if (m.isMutable || d.isMutable) && !d.userImpls.contains (setterName m.name) then
    [getterName m.name, setterName m.name]
  else [getterName m.name]

theorem methods_accessor (d : RecordDecl) (m : MemberDecl) :
    ((d.schema.accessor (d.field m)).1.map Accessor.methods).getD [] = d.methodsOf m := by
  have himpls : d.schema.isUserImplemented = d.userImpls.contains := rfl
  have hmutable : d.schema.isMutable = d.isMutable := rfl
  rw [RecordSchema.accessor, methodsOf]
  simp only [declaredName_field, isMutable_field, himpls, hmutable, Bool.or_assoc, Bool.or_self]
  by_cases hgetter : d.userImpls.contains (getterName m.name) = true
  · rw [if_pos hgetter, if_pos hgetter]
    rfl
  · rw [if_neg hgetter, if_neg hgetter, Option.map_some, Option.getD_some, Accessor.methods]
    dsimp only
    split <;> rfl

/-- The methods that a record gains are those of its members, in order. -/
theorem methods_eq (h : d.schema.generate = .ok g) :
    g.methods = d.dataMembers.flatMap d.methodsOf := by
  have hfields : d.schema.fields = d.dataMembers.map d.field := rfl
  rw [GeneratedMembers.methods, RecordSchema.accessors_of_generate h, hfields]
  induction d.dataMembers with
  | nil => rfl
  | cons m rest ih =>
    rw [List.map_cons, List.filterMap_cons, List.flatMap_cons, ← methods_accessor, ← ih]
    cases (d.schema.accessor (d.field m)).1 <;> rfl

/-- The accessors of a record are named after data members. -/
theorem exists_member_of_generate (h : d.schema.generate = .ok g) {a : Accessor}
    (ha : a ∈ g.accessors) : ∃ m ∈ d.dataMembers, m.name = a.field := by
  have hfield := (RecordSchema.fields_sublist h).subset (List.mem_map_of_mem ha)
  rw [declaredNames_schema] at hfield
  exact List.mem_map.mp hfield

/-- The methods differ if the logical names do under title case, and none of them is that of a
member with a setter behind `Set`. -/
theorem nodup_methods_of_pascal (hplain : d.PlainNames) (h : d.schema.generate = .ok g)
    (hcolumns : (g.accessors.map fun a => Naming.pascal.wireName a.field).Nodup)
    (hsetters : ∀ a ∈ g.accessors, ∀ b ∈ g.accessors, b.setter.isSome = true →
      Naming.pascal.wireName a.field ≠ "Set" ++ Naming.pascal.wireName b.field) :
    g.methods.Nodup := by
  have hnamed : ∀ a ∈ g.accessors, a.Named := fun a ha => (RecordSchema.named_of_generate h ha).1
  have hproperty : ∀ a ∈ g.accessors, Text.Plain (propertyName a.field).toList := by
    intro a ha
    obtain ⟨m, hm, hname⟩ := exists_member_of_generate h ha
    exact hname ▸ hplain m hm
  rw [GeneratedMembers.nodup_methods_iff hnamed]
  constructor
  · -- getters of one name have the same title case
    rw [List.nodup_iff_pairwise_ne, List.pairwise_map]
    refine (List.pairwise_map.mp hcolumns).imp_of_mem fun {a b} ha hb hne heq => hne ?_
    rw [(hnamed a ha).getter, (hnamed b hb).getter] at heq
    exact Naming.pascal_apply_congr (hproperty a ha) (hproperty b hb) heq
  · -- a getter that is a setter begins with its prefix, which is a word by itself
    intro a ha b hb hset
    refine hsetters a ha b hb (Option.isSome_of_eq_some hset) ?_
    have hgetter := (hnamed b hb).setter a.getter hset
    have hjoined : "set_" = "set" ++ "_" := by decide
    have hcapital : "Set" = String.ofList (Text.capitalizeFirst "set".toList) := by decide
    rw [(hnamed a ha).getter, (hnamed b hb).getter, hjoined] at hgetter
    rw [hcapital]
    exact Naming.pascal_apply_of_snake_append (hproperty a ha) (hproperty b hb) (by decide) hgetter

/-- The methods of a record that is extracted and gains accessors. None of them is written by hand.
If the logical names are in title case they differ under it. If they do, and none of them is that of
a member with a setter behind `Set`, then all getters and setters differ, and so do the identifiers
of the methods. -/
theorem methods_of_extract (h : d.extract = .ok s) (hgenerate : s.generate = .ok g)
    (hplain : d.PlainNames) :
    (∀ name ∈ g.methods, s.isUserImplemented name = false) ∧
    (d.InTitleCase → (g.accessors.map fun a => Naming.pascal.wireName a.field).Nodup) ∧
    ((g.accessors.map fun a => Naming.pascal.wireName a.field).Nodup →
      (∀ a ∈ g.accessors, ∀ b ∈ g.accessors, b.setter.isSome = true →
        Naming.pascal.wireName a.field ≠ "Set" ++ Naming.pascal.wireName b.field) →
      g.methods.Nodup ∧ (g.methods.filterMap Code.memberName?).Nodup) := by
  obtain ⟨-, rfl⟩ := extract_eq_ok_iff.mp h
  refine ⟨fun name hname => ?_, fun hcase => ?_, fun hcolumns hsetters => ?_⟩
  · obtain ⟨a, ha, hname⟩ := List.mem_flatMap.mp hname
    exact (RecordSchema.named_of_generate hgenerate ha).2 name hname
  · -- the members with accessors are some of those with columns
    have hsublist := (RecordSchema.fields_sublist hgenerate).map Naming.pascal.wireName
    rw [declaredNames_schema, List.map_map, List.map_map] at hsublist
    exact (nodup_columns_of_extract h hcase).sublist hsublist
  · have hmethods := nodup_methods_of_pascal hplain hgenerate hcolumns hsetters
    refine ⟨hmethods, hmethods.filterMap fun a b t ha hb => ?_⟩
    exact Code.memberName?_inj ha hb

/-- Gear has no method twice: its label is written by hand, and each of its other members has a
getter and a setter. -/
theorem methods_of_extract_gear : ∃ s g, Game.gear.record.decl.extract = .ok s ∧
    s.generate = .ok g ∧ g.methods.Nodup ∧
    g.methods = ["serial_no", "set_serial_no", "max_hp", "set_max_hp", "type", "set_type", "owner",
      "set_owner"] := by
  have hextract : Game.gear.record.decl.extract = .ok Game.gear.record.decl.schema :=
    extract_of_isNone (by decide +kernel)
  obtain ⟨g, hgenerate⟩ : ∃ g, Game.gear.record.decl.schema.generate = .ok g := ⟨_, rfl⟩
  obtain ⟨-, hcase, hmethods⟩ := methods_of_extract hextract hgenerate
    (plainNames_of_ascii (by decide +kernel))
  refine ⟨_, g, hextract, hgenerate, ?_, ?_⟩
  · refine (hmethods (hcase (by decide +kernel)) fun a ha b hb _ => ?_).1
    -- no logical name begins with the word that setters begin with
    have hset : ∀ m ∈ Game.gear.record.decl.dataMembers, ∀ m' ∈ Game.gear.record.decl.dataMembers,
        Naming.pascal.wireName m.name ≠ "Set" ++ Naming.pascal.wireName m'.name := by
      decide +kernel
    obtain ⟨m, hm, hname⟩ := exists_member_of_generate hgenerate ha
    obtain ⟨m', hm', hname'⟩ := exists_member_of_generate hgenerate hb
    exact hname ▸ hname' ▸ hset m hm m' hm'
  · rw [methods_eq hgenerate]
    decide +kernel

/-- A record with a member that is named as the setter of another one. -/
def prefixed : RecordDecl :=
  { RecordDecl.named "Prefixed" with
    members := [{ MemberDecl.data "hp" (.named "u32") with isMutable := true },
      MemberDecl.data "set_hp" (.named "u32")] }

/-- A record may be extracted, and gain the same method for two members: two getters of one name, or
a getter that is also the setter of another member, though all its columns differ. -/
theorem methods_collide :
    (∃ s g, RecordType.twins.decl.extract = .ok s ∧ s.generate = .ok g ∧ g.methods = ["xy", "xy"] ∧
      ¬ g.methods.Nodup) ∧
    Code.isIdentifier "hp" = true ∧ Code.isIdentifier "set_hp" = true ∧
    ∃ s g, prefixed.extract = .ok s ∧ (s.fields.map fun f => f.wireNameFor .pascal).Nodup ∧
      s.generate = .ok g ∧ g.methods = ["hp", "set_hp", "set_hp"] ∧ ¬ g.methods.Nodup := by
  constructor
  · obtain ⟨g, hgenerate⟩ : ∃ g, RecordType.twins.decl.schema.generate = .ok g := ⟨_, rfl⟩
    have hmethods : g.methods = ["xy", "xy"] := by
      rw [methods_eq hgenerate]
      decide
    exact ⟨_, g, extract_of_isNone (by decide +kernel), hgenerate, hmethods, by simp [hmethods]⟩
  · obtain ⟨g, hgenerate⟩ : ∃ g, prefixed.schema.generate = .ok g := ⟨_, rfl⟩
    have hmethods : g.methods = ["hp", "set_hp", "set_hp"] := by
      rw [methods_eq hgenerate]
      decide +kernel
    refine ⟨by decide +kernel, by decide +kernel, _, g, extract_of_isNone (by decide +kernel), ?_,
      hgenerate, hmethods, by simp [hmethods]⟩
    rw [wireNames_schema]
    decide +kernel

end RecordDecl

/-! ### Setters of mutable members -/

/-- A record gains a setter for the member of that name. -/
def GeneratedMembers.HasSetter (g : GeneratedMembers) (declared : String) : Prop :=
  ∃ a ∈ g.accessors, a.field = declared ∧ a.setter = some (setterName declared)

namespace RecordSchema

variable {s : RecordSchema} {f : FieldDescriptor} {g : GeneratedMembers}

theorem isUserImplemented_eq_false_iff {name : String} :
    s.isUserImplemented name = false ↔ name ∉ s.userImpls := by
  rw [isUserImplemented, ← Bool.not_eq_true, List.contains_iff_mem]

/-- A member gains a setter if it is mutable and neither of its methods is written by hand. -/
theorem setter_accessor_iff : (∃ a, (s.accessor f).1 = some a ∧
      a.setter = some (setterName f.declaredName)) ↔
    (f.isMutable || s.isMutable) = true ∧ getterName f.declaredName ∉ s.userImpls ∧
      setterName f.declaredName ∉ s.userImpls := by
  rw [← isUserImplemented_eq_false_iff, ← isUserImplemented_eq_false_iff, accessor]
  dsimp only
  cases hgetter : s.isUserImplemented (getterName f.declaredName) with
  | true => simp
  | false =>
    cases f.isMutable || s.isMutable <;>
      cases s.isUserImplemented (setterName f.declaredName) <;> simp

/-- The members for which a record gains a setter. -/
theorem hasSetter_iff (h : s.generate = .ok g) {declared : String} : g.HasSetter declared ↔
    (∃ f ∈ s.fields, f.declaredName = declared ∧ (f.isMutable || s.isMutable) = true) ∧
      getterName declared ∉ s.userImpls ∧ setterName declared ∉ s.userImpls := by
  rw [GeneratedMembers.HasSetter, accessors_of_generate h]
  constructor
  · rintro ⟨a, ha, rfl, hset⟩
    obtain ⟨f, hf, haccessor⟩ := List.mem_filterMap.mp ha
    obtain ⟨hfield, -⟩ := named_of_accessor haccessor
    rw [hfield] at hset ⊢
    obtain ⟨hmutable, hfree⟩ := setter_accessor_iff.mp ⟨a, haccessor, hset⟩
    exact ⟨⟨f, hf, rfl, hmutable⟩, hfree⟩
  · rintro ⟨⟨f, hf, rfl, hmutable⟩, hfree⟩
    obtain ⟨a, haccessor, hset⟩ := setter_accessor_iff.mpr ⟨hmutable, hfree⟩
    exact ⟨a, List.mem_filterMap.mpr ⟨f, hf, haccessor⟩, (named_of_accessor haccessor).1, hset⟩

/-- What is left out for a member is written by hand. -/
theorem mem_userImpls_of_mem_accessor {name : String} (h : name ∈ (s.accessor f).2) :
    name ∈ s.userImpls := by
  rw [accessor] at h
  dsimp only at h
  split at h
  · next hgetter =>
    obtain rfl := List.mem_singleton.mp h
    exact List.contains_iff_mem.mp hgetter
  · dsimp only at h
    split at h
    · next hset =>
      obtain rfl := List.mem_singleton.mp h
      exact List.contains_iff_mem.mp ((Bool.and_eq_true _ _).mp hset).2
    · cases h

/-- What is left out of a record is written by hand. -/
theorem mem_userImpls_of_mem_skipped (h : s.generate = .ok g) {name : String}
    (hname : name ∈ g.skipped) : name ∈ s.userImpls := by
  rw [generate] at h
  split at h
  · cases h
  · dsimp only at h
    split at h
    · cases h
    · next id skipped hid =>
      obtain rfl := Except.ok.inj h
      rcases List.mem_append.mp hname with hmember | hway
      · obtain ⟨made, hmade, hmember⟩ := List.mem_flatMap.mp hmember
        obtain ⟨f, -, rfl⟩ := List.mem_map.mp hmade
        exact mem_userImpls_of_mem_accessor hmember
      · -- the way to the id
        rw [idExtractor] at hid
        split at hid
        · cases hid
          cases hway
        · split at hid
          · next hbyHand =>
            cases hid
            obtain rfl := List.mem_singleton.mp hway
            exact List.contains_iff_mem.mp hbyHand
          · split at hid
            · cases hid
              cases hway
            · cases hid

end RecordSchema

namespace RecordDecl

variable {d : RecordDecl} {s : RecordSchema} {g : GeneratedMembers} {m : MemberDecl}

/-- A member may be replaced, by its own mark or by that of its record. -/
def Replaceable (d : RecordDecl) (m : MemberDecl) : Prop := (m.isMutable || d.isMutable) = true

/-- Among the data members of a record that is extracted a member is known by its name. -/
theorem eq_of_extract (h : d.extract = .ok s) {m' : MemberDecl} (hm : m ∈ d.dataMembers)
    (hm' : m' ∈ d.dataMembers) (hname : m.name = m'.name) : m = m' :=
  List.inj_on_of_nodup_map (nodup_properties h) hm hm' (congrArg propertyName hname)

/-- A mutable descriptor of the name of a data member is that of a mutable data member. -/
theorem exists_field_iff (h : d.extract = .ok s) (hm : m ∈ d.dataMembers) :
    (∃ f ∈ d.schema.fields, f.declaredName = m.name ∧
      (f.isMutable || d.schema.isMutable) = true) ↔ d.Replaceable m := by
  have hmutable : ∀ m : MemberDecl,
      ((d.field m).isMutable || d.schema.isMutable) = (m.isMutable || d.isMutable) := by
    intro m
    have hschema : d.schema.isMutable = d.isMutable := rfl
    rw [isMutable_field, hschema, Bool.or_assoc, Bool.or_self]
  rw [Replaceable]
  constructor
  · rintro ⟨f, hf, hname, hset⟩
    obtain ⟨m', hm', rfl⟩ := List.mem_map.mp hf
    rw [declaredName_field] at hname
    rwa [eq_of_extract h hm hm' hname.symm, ← hmutable]
  · intro hset
    exact ⟨d.field m, List.mem_map_of_mem hm, declaredName_field d m, hmutable m ▸ hset⟩

/-- The setters of a record that is extracted and gains accessors. It gains one for each mutable
member none of whose methods is written by hand. So a mutable member has a setter, a generated one
or one that is written by hand, if and only if its getter is not written by hand without its setter.
What is left out of the record is written by hand; a setter that is lost is not among it. -/
theorem setters_of_extract (h : d.extract = .ok s) (hgenerate : s.generate = .ok g)
    (hm : m ∈ d.dataMembers) :
    (g.HasSetter m.name ↔
      d.Replaceable m ∧ getterName m.name ∉ s.userImpls ∧ setterName m.name ∉ s.userImpls) ∧
    (d.Replaceable m → (g.HasSetter m.name ∨ setterName m.name ∈ s.userImpls ↔
      (getterName m.name ∈ s.userImpls → setterName m.name ∈ s.userImpls))) ∧
    ∀ name ∈ g.skipped, name ∈ s.userImpls := by
  have hset : g.HasSetter m.name ↔
      d.Replaceable m ∧ getterName m.name ∉ s.userImpls ∧ setterName m.name ∉ s.userImpls := by
    obtain ⟨-, rfl⟩ := extract_eq_ok_iff.mp h
    rw [RecordSchema.hasSetter_iff hgenerate, exists_field_iff h hm]
  refine ⟨hset, fun hmutable => ?_, fun name => RecordSchema.mem_userImpls_of_mem_skipped hgenerate⟩
  rw [hset, and_iff_right hmutable]
  constructor
  · rintro (⟨hgetter, -⟩ | hsetter) hbyHand
    · exact absurd hbyHand hgetter
    · exact hsetter
  · intro himplies
    -- a setter not written by hand is generated unless the getter alone is
    by_cases hsetter : setterName m.name ∈ s.userImpls
    · exact .inr hsetter
    · exact .inl ⟨fun hgetter => hsetter (himplies hgetter), hsetter⟩

/-- Each member of gear but its label has a setter. -/
theorem setters_of_extract_gear : ∃ s g, Game.gear.record.decl.extract = .ok s ∧
    s.generate = .ok g ∧ s.userImpls = ["get_id", "label"] ∧
    ∀ m ∈ Game.gear.record.decl.dataMembers, g.HasSetter m.name ↔ m.name ≠ "m_label" := by
  have hextract : Game.gear.record.decl.extract = .ok Game.gear.record.decl.schema :=
    extract_of_isNone (by decide)
  obtain ⟨g, hgenerate⟩ : ∃ g, Game.gear.record.decl.schema.generate = .ok g := ⟨_, rfl⟩
  have hmembers : ∀ m ∈ Game.gear.record.decl.dataMembers,
      ((m.isMutable || Game.gear.record.decl.isMutable) = true ∧
        getterName m.name ∉ Game.gear.record.decl.schema.userImpls ∧
        setterName m.name ∉ Game.gear.record.decl.schema.userImpls) ↔ m.name ≠ "m_label" := by
    decide
  refine ⟨_, g, hextract, hgenerate, rfl, fun m hm => ?_⟩
  rw [(setters_of_extract hextract hgenerate hm).1]
  exact hmembers m hm

/-- A record with a mutable member whose getter is written by hand. -/
def byHand : RecordDecl :=
  { RecordDecl.named "Hero" with
    members := [{ MemberDecl.data "hp" (.named "u32") with isMutable := true }]
    userImpls := ["hp"] }

/-- The member of that record is mutable. Its setter is not generated, is not written by hand and is
not left out for that. -/
theorem setter_lost_of_extract : ∃ s g m, byHand.extract = .ok s ∧ s.generate = .ok g ∧
    m ∈ byHand.dataMembers ∧ m.isMutable = true ∧ g.accessors = [] ∧ g.skipped = ["hp"] ∧
    ¬ g.HasSetter m.name ∧ setterName m.name = "set_hp" ∧ setterName m.name ∉ s.userImpls := by
  have hgenerate : byHand.schema.generate = .ok ⟨"Hero", [], none, ["hp"]⟩ := by
    decide +kernel
  have hset : setterName "hp" = "set_hp" ∧ setterName "hp" ∉ byHand.schema.userImpls := by
    decide
  refine ⟨_, _, _, extract_of_isNone (by decide), hgenerate, List.mem_cons_self, rfl, rfl,
    rfl, ?_, hset⟩
  rintro ⟨a, ha, -⟩
  cases ha

end RecordDecl

end TypedSheets
