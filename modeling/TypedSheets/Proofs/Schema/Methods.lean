import TypedSheets.Proofs.Code.Identifier
import TypedSheets.Proofs.Naming.Leading
import TypedSheets.Proofs.Schema.Accessors

/-!
# Names of methods

A getter is named by stripping and respelling the name of its member, and nothing looks at what
comes out. All its characters may stand in an identifier, so a setter, which has a prefix of its
own, can always be written. A getter can be written if a letter follows the private prefix and the
underscores of the member, unless it comes out as one of the words that are never names. Otherwise
its record gains no items at all.

## Main definitions

* `leadingOf?` — what the name of a member begins with, prefix and underscores aside

## Main results

* `isIdentContinue_getterName` — what the characters of a getter's name are
* `usable_setterName`, `usable_getterName_iff` — which methods can be written
* `Code.accessorTokens_of_not_usable`, `Code.accessorTokens_eq_error` — why an accessor is not
  emitted
* `RecordDecl.usable_of_extract` — the methods of records that are extracted
* `RecordDecl.not_usable_of_extract` — getters that cannot be written
-/

namespace TypedSheets

open Code Code.Lexer

/-! ### Names -/

section Names

variable {declared : String}

/-- The first character of a member that is no underscore, behind its private prefix. -/
def leadingOf? (declared : String) : Option Char :=
  Text.leading? ((stripFieldPrefix? declared).getD declared).toList

/-- A member keeps to the characters of identifiers without its prefix. -/
theorem isIdentContinue_stripped (h : isIdentifier declared = true) :
    ∀ c ∈ ((stripFieldPrefix? declared).getD declared).toList, isIdentContinue c = true := by
  have hall := (isIdentifier_iff.mp h).2
  cases hstrip : stripFieldPrefix? declared with
  | none => exact hall
  | some rest => exact fun c hc => hall c (mem_of_stripFieldPrefix? hstrip c hc)

theorem toList_getterName (declared : String) : (getterName declared).toList =
    Naming.snake.applyChars
      (Naming.pascal.applyChars ((stripFieldPrefix? declared).getD declared).toList) := by
  rw [getterName, propertyName, Naming.toList_apply, Naming.toList_apply]

theorem isIdentContinue_finalSigma : isIdentContinue Text.finalSigma = true := by
  decide +kernel

/-- The characters of a getter's name may stand in an identifier. -/
theorem isIdentContinue_getterName (h : isIdentifier declared = true) :
    ∀ c ∈ (getterName declared).toList, isIdentContinue c = true := by
  intro c hc
  rw [toList_getterName] at hc
  rcases Naming.mem_of_mem_snake hc with rfl | rfl | ⟨u, hu, hc⟩
  · decide
  · exact isIdentContinue_finalSigma
  -- the title case in between need not be an identifier, only its small letters are
  · rcases Naming.mem_of_mem_pascal hu with rfl | ⟨d, hd, hu | hu⟩
    · exact (keepsNames_lowerForm _).continues isIdentContinue_finalSigma c hc
    · exact (keepsNames_upperForm d).continues (isIdentContinue_stripped h d hd) c
        (List.mem_flatMap.mpr ⟨u, hu, hc⟩)
    · have hu := (keepsNames_lowerForm d).continues (isIdentContinue_stripped h d hd) u hu
      exact (keepsNames_lowerForm u).continues hu c hc

theorem isSeparator_of_isIdentContinue {c : Char} (hc : isIdentContinue c = true) (hne : c ≠ '_') :
    Text.isSeparator [c] = false := by
  have hhyphen : c ≠ '-' := by
    rintro rfl
    revert hc
    decide
  have hspace : c ≠ ' ' := by
    rintro rfl
    revert hc
    decide
  simp [Text.isSeparator, hne, hhyphen, hspace]

/-- A separator is its own small letter, which is no letter. -/
theorem isSeparator_of_isLetter_lowerForm {u : Char}
    (h : (Text.lowerForm u).head?.any isLetter = true) : Text.isSeparator [u] = false := by
  by_contra hsep
  rw [Bool.not_eq_false] at hsep
  simp only [Text.isSeparator, Bool.or_eq_true, List.cons_beq_cons, beq_self_eq_true, Bool.and_true,
    beq_iff_eq] at hsep
  rcases hsep with (rfl | rfl) | rfl <;> revert h <;> decide

/-- A getter begins with a form of what its member begins with. -/
theorem head?_getterName {c : Char} (hleading : leadingOf? declared = some c)
    (hc : isIdentContinue c = true) (hne : c ≠ '_') (hmark : Text.isMark c = false) :
    (getterName declared).toList.head?.any isIdentStart = isLetter c := by
  obtain ⟨rest, hpascal⟩ :=
    Naming.pascal_of_leading? hleading (isSeparator_of_isIdentContinue hc hne) hmark
  rw [toList_getterName, hpascal]
  -- a letter may have a longer upper form, of which the first part counts
  cases hletter : isLetter c with
  | true =>
    have hstarts := (keepsNames_upperForm c).starts hletter
    cases hupper : Text.upperForm c with
    | nil =>
      rw [hupper] at hstarts
      cases hstarts
    | cons u more =>
      rw [hupper, head?_flatMap_lowerForm] at hstarts
      obtain ⟨behind, hsnake⟩ :=
        Naming.snake_cons (isSeparator_of_isLetter_lowerForm hstarts) (more ++ rest)
      rw [List.cons_append, hsnake, List.head?_append,
        Option.or_of_isSome (List.isSome_head?.mpr (lowerForm_ne_nil u))]
      obtain ⟨e, he, hletter⟩ := (Option.any_eq_true _ _).mp hstarts
      exact (Option.any_eq_true _ _).mpr ⟨e, he, isIdentStart_of_isLetter hletter⟩
  | false =>
    have hstart : isIdentStart c = false := by
      simpa [isLetter, hne] using hletter
    obtain ⟨hupper, hlower⟩ := upperForm_of_notStart hc hstart hmark
    obtain ⟨behind, hsnake⟩ := Naming.snake_cons (isSeparator_of_isIdentContinue hc hne) rest
    rw [hupper, List.singleton_append, hsnake, hlower]
    exact hstart

/-- A getter's name is an identifier if its member begins with a letter. -/
theorem isIdentifier_getterName_iff (h : isIdentifier declared = true)
    (hmark : ∀ c ∈ leadingOf? declared, Text.isMark c = false) :
    isIdentifier (getterName declared) = true ↔ (leadingOf? declared).any isLetter = true := by
  rw [isIdentifier_iff, and_iff_left (isIdentContinue_getterName h)]
  cases hleading : leadingOf? declared with
  | none =>
    -- nothing but underscores: the name of the getter is empty
    rw [toList_getterName, Naming.applyChars_of_leading?_eq_none _ hleading]
    exact Iff.rfl
  | some c =>
    have hmem : c ∈ ((stripFieldPrefix? declared).getD declared).toList :=
      (List.dropWhile_sublist _).subset (List.mem_of_head? hleading)
    have hne : c ≠ '_' := by
      have hnot := List.head?_dropWhile_not (· == '_')
        ((stripFieldPrefix? declared).getD declared).toList
      rw [← Text.leading?, ← leadingOf?, hleading] at hnot
      simpa using hnot
    rw [head?_getterName hleading (isIdentContinue_stripped h c hmem) hne (hmark c hleading),
      Option.any_some]

/-- Which getters can be written. -/
theorem usable_getterName_iff (h : Usable declared)
    (hmark : ∀ c ∈ leadingOf? declared, Text.isMark c = false) :
    Usable (getterName declared) ↔
      (leadingOf? declared).any isLetter = true ∧ getterName declared ∉ neverNames := by
  rw [usable_iff, isIdentifier_getterName_iff (usable_iff.mp h).1 hmark]

/-- Setters can be written, whatever the getter comes out as. -/
theorem usable_setterName (h : Usable declared) : Usable (setterName declared) := by
  have hchars : (setterName declared).toList =
      ['s', 'e', 't', '_'] ++ (getterName declared).toList := by
    rw [setterName, String.toList_append]
    rfl
  refine usable_iff.mpr ⟨isIdentifier_iff.mpr ?_, fun hnever => ?_⟩
  · rw [hchars]
    refine ⟨rfl, List.forall_mem_append.mpr ⟨List.all_eq_true.mp rfl, ?_⟩⟩
    exact isIdentContinue_getterName (usable_iff.mp h).1
  · have hprefix : ∀ n ∈ neverNames, n.toList.take 4 ≠ ['s', 'e', 't', '_'] := by decide
    refine hprefix _ hnever ?_
    rw [hchars]
    exact List.take_left' rfl

end Names

/-! ### Emission -/

namespace Code

variable {a : Accessor} {e : EmitError}

theorem memberOf_of_not_usable {name : String} (h : ¬ Usable name) :
    memberOf name = .error (.noIdentifier name) := by
  rw [Usable, memberOf] at h
  rw [memberOf]
  cases hname : memberName? name with
  | none => rfl
  | some t =>
    rw [hname] at h
    exact absurd ⟨t, rfl⟩ h

theorem typeOf_eq_error {text : String} (h : typeOf text = .error e) : e = .noType text := by
  rw [typeOf] at h
  split at h
  · cases h
  · exact (Except.error.inj h).symm

/-- An accessor is not emitted if its getter cannot be written. -/
theorem accessorTokens_of_not_usable (hfield : Usable a.field) (h : ¬ Usable a.getter) :
    accessorTokens a = .error (.noIdentifier a.getter) := by
  obtain ⟨t, hfield⟩ := hfield
  rw [accessorTokens, hfield, memberOf_of_not_usable h]
  rfl

theorem setterTokens_eq_error {field type : Tokens} (hsetter : ∀ name ∈ a.setter, Usable name)
    (h : setterTokens a field type = .error e) : ∃ text, e = .noType text := by
  rw [setterTokens] at h
  split at h
  · cases h
  · next name hname =>
    obtain ⟨t, ht⟩ := hsetter name hname
    rw [ht] at h
    split at h
    · next item _ _ =>
      cases htype : typeOf item with
      | error e' =>
        rw [htype] at h
        cases h
        exact ⟨item, typeOf_eq_error htype⟩
      | ok ts =>
        rw [htype] at h
        cases h
    · cases h

/-- Where the methods of an accessor can be written, only a type can be at fault. -/
theorem accessorTokens_eq_error (hfield : Usable a.field) (hgetter : Usable a.getter)
    (hsetter : ∀ name ∈ a.setter, Usable name) (h : accessorTokens a = .error e) :
    ∃ text, e = .noType text := by
  obtain ⟨t, hfield⟩ := hfield
  obtain ⟨t', hgetter⟩ := hgetter
  rw [accessorTokens, hfield, hgetter] at h
  -- the names are usable, so what fails is the type, or the setter by its type
  cases htype : typeOf a.type with
  | error e' =>
    rw [htype] at h
    cases h
    exact ⟨a.type, typeOf_eq_error htype⟩
  | ok ts =>
    rw [htype] at h
    cases hset : setterTokens a [t] ts with
    | error e' =>
      refine setterTokens_eq_error hsetter (hset.trans ?_)
      have h : (setterTokens a [t] ts >>= fun _ => _) = _ := h
      rw [hset] at h
      cases h
      rfl
    | ok ts' =>
      have h : (setterTokens a [t] ts >>= fun _ => _) = _ := h
      rw [hset] at h
      cases h

theorem exists_error_of_emitEach {α β : Type} {f : α → Except EmitError β} {as : List α} {x : α}
    (hx : x ∈ as) (h : f x = .error e) : ∃ e', emitEach f as = .error e' := by
  induction as with
  | nil => cases hx
  | cons y rest ih =>
    rw [emitEach]
    rcases List.mem_cons.mp hx with rfl | hx
    · rw [h]
      exact ⟨e, rfl⟩
    · obtain ⟨e', hrest⟩ := ih hx
      cases f y with
      | error e'' => exact ⟨e'', rfl⟩
      | ok b =>
        rw [hrest]
        exact ⟨e', rfl⟩

/-- One accessor that is not emitted keeps all items of its record back. -/
theorem exists_error_of_emitItems {g : GeneratedMembers} (ha : a ∈ g.accessors)
    (h : accessorTokens a = .error e) (lib record : Tokens) (s : RecordSchema) :
    ∃ e', emitItems lib record s g = .error e' := by
  obtain ⟨e', heach⟩ := exists_error_of_emitEach ha h
  refine ⟨e', ?_⟩
  have hne : g.accessors.isEmpty = false := List.isEmpty_eq_false_iff_exists_mem.mpr ⟨a, ha⟩
  rw [emitItems, accessorsItem, hne, heach]
  rfl

end Code

/-! ### Records -/

namespace RecordDecl

variable {d : RecordDecl} {s : RecordSchema} {g : GeneratedMembers}

/-- The methods of a record that is extracted and gains accessors, where the names of its members
can be written. Every setter can be written. If a getter can, nothing but a type keeps its accessor
from being emitted; if not, the record gains no items. A getter can be written if and only if its
member begins with a letter, prefix and underscores aside, and it is none of the words that are
never names. The last is said of members that do not begin with a mark there, for a mark makes one
with the underscore in front of it. -/
theorem usable_of_extract (h : d.extract = .ok s) (hgenerate : s.generate = .ok g)
    (hnames : ∀ m ∈ d.dataMembers, Usable m.name) {a : Accessor} (ha : a ∈ g.accessors) :
    (∀ name ∈ a.setter, Usable name) ∧
    (Usable a.getter → ∀ e, accessorTokens a = .error e → ∃ text, e = .noType text) ∧
    (¬ Usable a.getter → accessorTokens a = .error (.noIdentifier a.getter) ∧
      ∀ lib record, ∃ e, emitItems lib record s g = .error e) ∧
    ((∀ c ∈ leadingOf? a.field, Text.isMark c = false) →
      (Usable a.getter ↔ (leadingOf? a.field).any isLetter = true ∧ a.getter ∉ neverNames)) := by
  obtain ⟨-, rfl⟩ := extract_eq_ok_iff.mp h
  obtain ⟨m, hm, hname⟩ := exists_member_of_generate hgenerate ha
  have hfield : Usable a.field := hname ▸ hnames m hm
  have hnamed := (RecordSchema.named_of_generate hgenerate ha).1
  have hsetter : ∀ name ∈ a.setter, Usable name := by
    intro name hset
    rw [hnamed.setter name hset, hnamed.getter]
    exact usable_setterName hfield
  refine ⟨hsetter, fun hgetter e => accessorTokens_eq_error hfield hgetter hsetter, ?_, ?_⟩
  · intro hgetter
    have hfails := accessorTokens_of_not_usable hfield hgetter
    exact ⟨hfails, fun lib record => exists_error_of_emitItems ha hfails lib record _⟩
  · rw [hnamed.getter]
    exact usable_getterName_iff hfield

/-- The methods of gear can be written, that of its member `type` as a raw identifier. -/
theorem usable_of_extract_gear : ∃ s g, Game.gear.record.decl.extract = .ok s ∧
    s.generate = .ok g ∧
    g.accessors.map Accessor.getter = ["serial_no", "max_hp", "type", "owner"] ∧
    isKeyword "type" = true ∧
    ∀ a ∈ g.accessors, Usable a.getter ∧ ∀ name ∈ a.setter, Usable name := by
  have hextract : Game.gear.record.decl.extract = .ok Game.gear.record.decl.schema :=
    extract_of_isNone (by decide)
  obtain ⟨g, hgenerate⟩ : ∃ g, Game.gear.record.decl.schema.generate = .ok g := ⟨_, rfl⟩
  -- every member has a usable name that starts with a letter
  have hnames : ∀ m ∈ Game.gear.record.decl.dataMembers, Usable m.name ∧
      (leadingOf? m.name).all (!Text.isMark ·) = true ∧
      (leadingOf? m.name).any isLetter = true ∧ getterName m.name ∉ neverNames := by
    simp only [usable_iff]
    decide +kernel
  refine ⟨_, g, hextract, hgenerate, ?_, by decide, fun a ha => ?_⟩
  · rw [RecordSchema.accessors_of_generate hgenerate]
    decide +kernel
  · obtain ⟨m, hm, hname⟩ := exists_member_of_generate hgenerate ha
    obtain ⟨-, hmark, hletter, hnever⟩ := hnames m hm
    rw [hname] at hmark hletter hnever
    obtain ⟨hsetter, -, -, hgetter⟩ :=
      usable_of_extract hextract hgenerate (fun m hm => (hnames m hm).1) ha
    rw [← (RecordSchema.named_of_generate hgenerate ha).1.getter] at hnever
    refine ⟨(hgetter fun c hc => ?_).mpr ⟨hletter, hnever⟩, hsetter⟩
    simpa using (Option.all_eq_true _ _).mp hmark c hc

/-- A record with one member. -/
def single (name : String) : RecordDecl :=
  { RecordDecl.named "Single" with members := [MemberDecl.data name (.named "u32")] }

/-- A member whose name can be written makes up a record that is extracted and gains one accessor.
The getter is that text, and it cannot be written. -/
def LosesGetter (member getter : String) : Prop :=
  Usable member ∧ ∃ s g a, (single member).extract = .ok s ∧ s.generate = .ok g ∧
    g.accessors = [a] ∧ a.field = member ∧ a.getter = getter ∧ ¬ Usable a.getter ∧
    accessorTokens a = .error (.noIdentifier getter)

theorem losesGetter_of_not_usable {member getter : String} (hname : Usable member)
    (hgetter : getterName member = getter) (hnot : ¬ Usable getter)
    (hfault : (single member).fault?.isNone = true) : LosesGetter member getter := by
  obtain ⟨g, hgenerate⟩ : ∃ g, (single member).schema.generate = .ok g := ⟨_, rfl⟩
  obtain ⟨a, haccessors⟩ : ∃ a, g.accessors = [a] := by
    rw [RecordSchema.accessors_of_generate hgenerate]
    exact ⟨_, rfl⟩
  have ha : a ∈ g.accessors := haccessors ▸ List.mem_cons_self
  obtain ⟨m, hm, hfield⟩ := exists_member_of_generate hgenerate ha
  obtain rfl := List.mem_singleton.mp hm
  have hmade : a.getter = getter := by
    rw [(RecordSchema.named_of_generate hgenerate ha).1.getter, ← hfield]
    exact hgetter
  rw [← hmade] at hnot
  refine ⟨hname, _, g, a, extract_of_isNone hfault, hgenerate, haccessors, hfield.symm, hmade, hnot,
    ?_⟩
  rw [← hmade]
  exact accessorTokens_of_not_usable (hfield ▸ hname) hnot

/-- Members whose names can be written, and whose getters cannot: a digit, nothing at all or one of
the words that are never names comes out. -/
theorem not_usable_of_extract : LosesGetter "_1" "1" ∧ LosesGetter "__" "" ∧
    LosesGetter "_self" "self" ∧ LosesGetter "SELF" "self" := by
  have hall : ∀ names ∈ [("_1", "1"), ("__", ""), ("_self", "self"), ("SELF", "self")],
      Usable names.1 ∧ getterName names.1 = names.2 ∧ ¬ Usable names.2 ∧
      (single names.1).fault?.isNone = true := by
    simp only [usable_iff]
    decide
  have hloses : ∀ names ∈ [("_1", "1"), ("__", ""), ("_self", "self"), ("SELF", "self")],
      LosesGetter names.1 names.2 := fun names hmem =>
    have ⟨hname, hgetter, hnot, hfault⟩ := hall names hmem
    losesGetter_of_not_usable hname hgetter hnot hfault
  simpa using hloses

end RecordDecl

end TypedSheets
