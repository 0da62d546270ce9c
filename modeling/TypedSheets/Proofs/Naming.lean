import Mathlib.Data.List.Basic
import TypedSheets.Naming

/-!
# What a naming keeps of a name

Each naming cuts a name into words and joins them in its own way. From the joined words the name in
title case can be had again, whatever the naming is. So names that are told apart in title case are
told apart under every naming.

Characters with odd case forms are left out: a name with the Greek capital theta symbol and one with
the capital theta have the same small letters.

## Main definitions

* `Text.PlainCase` — a character that has one small letter, and the capital of that one
* `Text.Plain`, `Text.Ascii` — texts of such characters, and of ASCII characters
* `Naming.recover` — the title case of what a naming has joined

## Main results

* `Text.plainCase_of_ascii` — the ASCII characters have plain case
* `Text.capitalizeFirst_lowered` — a word can be capitalized after it was lowered
* `Naming.recover_applyChars` — what a naming has joined gives the name in title case
* `Naming.pascal_apply_congr` — names that are spelled alike have the same title case
* `plain_propertyName` — the logical names of members that are named in ASCII have plain case
-/

namespace TypedSheets

namespace Text

/-! ### Plain case -/

/-- The small letter of a character. -/
def small (c : Char) : Char := (lowerForm c).headD c

/-- A character that stands alone, has one small letter and gets no other capital from it. -/
structure PlainCase (c : Char) : Prop where
  notMark : isMark c = false
  /-- The small letter of a capital sigma depends on what is around it. -/
  notSigma : c ≠ capitalSigma
  lower : lowerForm c = [small c]
  upper : upperForm (small c) = upperForm c
  separator : isSeparator [small c] = isSeparator [c]

instance : DecidablePred PlainCase := fun c =>
  decidable_of_iff (isMark c = false ∧ c ≠ capitalSigma ∧ lowerForm c = [small c] ∧
      upperForm (small c) = upperForm c ∧ isSeparator [small c] = isSeparator [c])
    ⟨fun ⟨h₁, h₂, h₃, h₄, h₅⟩ => ⟨h₁, h₂, h₃, h₄, h₅⟩,
      fun ⟨h₁, h₂, h₃, h₄, h₅⟩ => ⟨h₁, h₂, h₃, h₄, h₅⟩⟩

/-- All characters of the text have plain case. -/
def Plain (s : List Char) : Prop := ∀ c ∈ s, PlainCase c

-- the instance goes through the text, not through all characters
instance : DecidablePred Plain := fun s => List.decidableBAll PlainCase s

/-- The ASCII characters have plain case. -/
theorem plainCase_of_ascii {c : Char} (h : c.toNat < 0x80) : PlainCase c := by
  have hall : ∀ n : Fin 0x80, PlainCase (Char.ofNat n) := by decide +kernel
  have hc := hall ⟨c.toNat, h⟩
  rwa [Char.ofNat_toNat] at hc

variable {s : List Char}

/-- The clusters of a text are the text, cut. -/
theorem flatten_clusters (s : List Char) : (clusters s).flatten = s := by
  induction s with
  | nil => rfl
  | cons c rest ih =>
    rw [clusters] at ih ⊢
    rw [List.foldr_cons]
    generalize List.foldr _ [] rest = done at ih ⊢
    -- the character joins the first cluster, or is one of its own
    split
    · split <;> simp [← ih]
    · simp [ih]

/-- Without marks each character is a cluster. -/
theorem clusters_of_plain (hs : Plain s) : clusters s = s.map fun c => [c] := by
  induction s with
  | nil => rfl
  | cons c rest ih =>
    have hrest := ih fun d hd => hs d (List.mem_cons_of_mem _ hd)
    rw [clusters] at hrest
    rw [clusters, List.foldr_cons, hrest]
    cases rest with
    | nil => rfl
    | cons d _ =>
      have hd := (hs d (List.mem_cons_of_mem _ List.mem_cons_self)).notMark
      simp only [List.map_cons, hd, Bool.false_eq_true, if_false]

theorem lowerFrom_of_plain (hs : Plain s) (before : List Char) :
    lowerFrom before s = s.map small := by
  induction s generalizing before with
  | nil => rfl
  | cons c rest ih =>
    obtain ⟨hc, hrest⟩ := List.forall_mem_cons.mp hs
    have hsigma : (c == capitalSigma) = false := beq_eq_false_iff_ne.mpr hc.notSigma
    rw [lowerFrom, ih hrest]
    simp only [hsigma, Bool.false_eq_true, if_false, hc.lower, List.map_cons, List.singleton_append]

theorem lowerChars_of_plain (hs : Plain s) : lowerChars s = s.map small := lowerFrom_of_plain hs []

/-! ### Words -/

/-- What stands in a word was in the open word or comes from the rest of the name. -/
theorem mem_of_mem_wordsFrom {prev : Option Cluster} {word w : List Cluster} {rest : List Cluster}
    {c : Cluster} (hw : w ∈ wordsFrom prev word rest) (hc : c ∈ w) :
    c ∈ word ∨ (c ∈ rest ∧ isSeparator c = false) := by
  induction rest generalizing prev word with
  | nil =>
    obtain rfl := List.mem_singleton.mp hw
    exact Or.inl hc
  | cons d rest ih =>
    rw [wordsFrom] at hw
    split at hw
    · -- a separator belongs to no word
      rcases List.mem_cons.mp hw with rfl | hw
      · exact Or.inl hc
      · rcases ih hw with h | ⟨h, hsep⟩
        · exact absurd h List.not_mem_nil
        · exact Or.inr ⟨List.mem_cons_of_mem _ h, hsep⟩
    · next hd =>
      have hfirst : isSeparator d = false := Bool.eq_false_iff.mpr hd
      split at hw
      · rcases List.mem_cons.mp hw with rfl | hw
        · exact Or.inl hc
        · rcases ih hw with h | ⟨h, hsep⟩
          · exact Or.inr ⟨List.mem_cons.mpr (Or.inl (List.mem_singleton.mp h)),
              List.mem_singleton.mp h ▸ hfirst⟩
          · exact Or.inr ⟨List.mem_cons_of_mem _ h, hsep⟩
      · rcases ih hw with h | ⟨h, hsep⟩
        · rcases List.mem_append.mp h with h | h
          · exact Or.inl h
          · exact Or.inr ⟨List.mem_cons.mpr (Or.inl (List.mem_singleton.mp h)),
              List.mem_singleton.mp h ▸ hfirst⟩
        · exact Or.inr ⟨List.mem_cons_of_mem _ h, hsep⟩

/-- A word of a plain name is made of its characters, at least one and no separators. -/
theorem exists_of_mem_words (hs : Plain s) {w : List Cluster} (hw : w ∈ words s) :
    ∃ c rest, w = (c :: rest).map (fun c => [c]) ∧
      ∀ d ∈ c :: rest, d ∈ s ∧ isSeparator [d] = false := by
  obtain ⟨hmem, hne⟩ := List.mem_filter.mp hw
  have hclusters : ∀ cluster ∈ w, ∃ c ∈ s, [c] = cluster ∧ isSeparator cluster = false := by
    intro cluster hcluster
    rcases mem_of_mem_wordsFrom hmem hcluster with h | ⟨h, hsep⟩
    · exact absurd h List.not_mem_nil
    · rw [clusters_of_plain hs] at h
      obtain ⟨c, hc, rfl⟩ := List.mem_map.mp h
      exact ⟨c, hc, rfl, hsep⟩
  -- its clusters are single characters, so it is known by the characters in it
  have hchars : w = w.flatten.map fun c => [c] := by
    clear hw hmem hne
    induction w with
    | nil => rfl
    | cons cluster rest ih =>
      obtain ⟨⟨c, -, rfl, -⟩, hrest⟩ := List.forall_mem_cons.mp hclusters
      rw [List.flatten_cons, List.singleton_append, List.map_cons, ← ih hrest]
  have hall : ∀ d ∈ w.flatten, d ∈ s ∧ isSeparator [d] = false := by
    intro d hd
    obtain ⟨cluster, hcluster, hmem⟩ := List.mem_flatten.mp hd
    obtain ⟨c, hc, rfl, hsep⟩ := hclusters cluster hcluster
    obtain rfl := List.mem_singleton.mp hmem
    exact ⟨hc, hsep⟩
  cases hflat : w.flatten with
  | nil =>
    -- empty words are left out
    rw [hflat, List.map_nil] at hchars
    rw [hchars] at hne
    cases hne
  | cons c rest =>
    rw [hflat] at hchars hall
    exact ⟨c, rest, hchars, hall⟩

/-- The text with a capital in front. -/
def capitalizeFirst : List Char → List Char
  | [] => []
  | c :: rest => upperForm c ++ rest

/-- A word of a plain name in lower case and in title case, character by character. -/
theorem exists_lowered_eq (hs : Plain s) {w : List Cluster} (hw : w ∈ words s) :
    ∃ c rest, lowered w = (c :: rest).map small ∧ capitalized w = upperForm c ++ rest.map small ∧
      ∀ d ∈ c :: rest, d ∈ s ∧ isSeparator [d] = false := by
  obtain ⟨c, rest, rfl, hall⟩ := exists_of_mem_words hs hw
  have hplain : Plain (c :: rest) := fun d hd => hs d (hall d hd).1
  have hflat : ∀ s : List Char, (s.map fun c => [c]).flatten = s := fun s => by
    rw [← List.flatMap_def, List.flatMap_singleton']
  refine ⟨c, rest, ?_, ?_, hall⟩
  · rw [lowered, hflat, lowerChars_of_plain hplain]
  · rw [List.map_cons, capitalized, hflat,
      lowerChars_of_plain fun d hd => hplain d (List.mem_cons_of_mem _ hd), upperChars,
      List.flatMap_singleton]

/-- A word of a plain name in lower case: it is not empty, has no separators, and is capitalized as
before. -/
theorem capitalizeFirst_lowered (hs : Plain s) {w : List Cluster} (hw : w ∈ words s) :
    lowered w ≠ [] ∧ (∀ d ∈ lowered w, isSeparator [d] = false) ∧
      ∀ behind, capitalizeFirst (lowered w ++ behind) = capitalized w ++ behind := by
  obtain ⟨c, rest, hlowered, hcapitalized, hall⟩ := exists_lowered_eq hs hw
  have hplain := fun d hd => hs d (hall d hd).1
  rw [hlowered, hcapitalized]
  refine ⟨by simp, fun d hd => ?_, fun behind => ?_⟩
  · obtain ⟨e, he, rfl⟩ := List.mem_map.mp hd
    rw [(hplain e he).separator, (hall e he).2]
  · rw [List.map_cons, List.cons_append, capitalizeFirst, (hplain c List.mem_cons_self).upper,
      List.append_assoc]

/-! ### ASCII -/

/-- All characters of the text are ASCII. -/
def Ascii (s : List Char) : Prop := ∀ c ∈ s, c.toNat < 0x80

instance : DecidablePred Ascii := fun s => List.decidableBAll (fun c : Char => c.toNat < 0x80) s

theorem Ascii.plain (hs : Ascii s) : Plain s := fun c hc => plainCase_of_ascii (hs c hc)

theorem ascii_upperForm {c : Char} (h : c.toNat < 0x80) : Ascii (upperForm c) := by
  have hall : ∀ n : Fin 0x80, ((Char.ofNat n).toUpper).toNat < 0x80 := by decide
  have hc := hall ⟨c.toNat, h⟩
  rw [Char.ofNat_toNat] at hc
  rw [upperForm, if_pos h]
  exact List.forall_mem_singleton.mpr hc

theorem ascii_small {c : Char} (h : c.toNat < 0x80) : (small c).toNat < 0x80 := by
  have hall : ∀ n : Fin 0x80, (small (Char.ofNat n)).toNat < 0x80 := by decide
  have hc := hall ⟨c.toNat, h⟩
  rwa [Char.ofNat_toNat] at hc

end Text

open Text (Ascii Plain capitalizeFirst)

/-! ### Names -/

namespace Naming

/-- The title case of a name that is spelled under a naming. -/
def recover : Naming → List Char → List Char
  | .pascal, s => s
  | .camel, s => capitalizeFirst s
  | .snake, s => (s.splitOn '_').flatMap capitalizeFirst
  | .kebab, s => (s.splitOn '-').flatMap capitalizeFirst

variable {s : List Char}

/-- Words that were joined by a separator are found again. -/
theorem flatMap_splitOn (hs : Plain s) {mark : Char} (hmark : Text.isSeparator [mark] = true) :
    (([mark].intercalate ((Text.words s).map Text.lowered)).splitOn mark).flatMap capitalizeFirst =
      pascal.applyChars s := by
  rw [applyChars, joinWords]
  cases hwords : Text.words s with
  | nil => rfl
  | cons w ws =>
    have hall := fun v (hv : v ∈ w :: ws) => Text.capitalizeFirst_lowered hs (hwords ▸ hv)
    -- the separator is in none of the words, so splitting gives them back
    rw [List.splitOn_intercalate mark ?_ (by simp), List.flatMap_map]
    · refine List.flatMap_congr fun v hv => ?_
      have hv := (hall v hv).2.2 []
      rwa [List.append_nil, List.append_nil] at hv
    · intro l hl hmem
      obtain ⟨v, hv, rfl⟩ := List.mem_map.mp hl
      have hnot := (hall v hv).2.1 mark hmem
      rw [hmark] at hnot
      cases hnot

/-- What a naming has joined gives the name in title case. -/
theorem recover_applyChars (n : Naming) (hs : Plain s) :
    n.recover (n.applyChars s) = pascal.applyChars s := by
  cases n with
  | pascal => rfl
  | camel =>
    rw [recover, applyChars, applyChars, joinWords.eq_def, joinWords.eq_def]
    -- only the first word is not capitalized yet
    cases hwords : Text.words s with
    | nil => rfl
    | cons w ws =>
      have hw : w ∈ Text.words s := hwords ▸ List.mem_cons_self
      exact (Text.capitalizeFirst_lowered hs hw).2.2 _
  | snake => exact flatMap_splitOn hs rfl
  | kebab => exact flatMap_splitOn hs rfl

/-- Names that are spelled alike under one naming have the same title case. -/
theorem pascal_apply_congr {n : Naming} {a b : String} (ha : Plain a.toList) (hb : Plain b.toList)
    (h : n.apply a = n.apply b) : pascal.apply a = pascal.apply b := by
  rw [← String.toList_inj, toList_apply, toList_apply] at h ⊢
  rw [← n.recover_applyChars ha, h, n.recover_applyChars hb]

/-- The title case of a name with a prefix in snake case. -/
theorem pascal_apply_of_snake_append {word a b : String} (ha : Plain a.toList)
    (hb : Plain b.toList) (hword : '_' ∉ word.toList)
    (h : snake.apply a = word ++ "_" ++ snake.apply b) :
    pascal.apply a = String.ofList (capitalizeFirst word.toList) ++ pascal.apply b := by
  rw [← String.toList_inj, toList_apply, String.toList_append, String.toList_append, toList_apply]
    at h
  rw [← String.toList_inj, toList_apply, String.toList_append, toList_apply, String.toList_ofList,
    ← snake.recover_applyChars ha, ← snake.recover_applyChars hb, h, recover, List.append_assoc]
  have hcons : "_".toList ++ snake.applyChars b.toList = '_' :: snake.applyChars b.toList := rfl
  have hsplit : (word.toList ++ '_' :: snake.applyChars b.toList).splitOn '_' =
      word.toList :: (snake.applyChars b.toList).splitOn '_' := by
    refine List.splitOnP_append_cons_of_forall_mem (fun c hc => ?_) '_' (by decide) _
    rw [beq_eq_false_iff_ne]
    rintro rfl
    exact hword hc
  rw [hcons, hsplit, List.flatMap_cons, recover]

/-- Under title case an ASCII name stays one. -/
theorem ascii_pascal (hs : Ascii s) : Ascii (pascal.applyChars s) := by
  intro d hd
  obtain ⟨w, hw, hd⟩ := List.mem_flatMap.mp hd
  obtain ⟨c, rest, -, hcapitalized, hall⟩ := Text.exists_lowered_eq hs.plain hw
  have hascii := fun e he => hs e (hall e he).1
  rw [hcapitalized] at hd
  rcases List.mem_append.mp hd with hd | hd
  · exact Text.ascii_upperForm (hascii c List.mem_cons_self) d hd
  · obtain ⟨e, he, rfl⟩ := List.mem_map.mp hd
    exact Text.ascii_small (hascii e (List.mem_cons_of_mem _ he))

end Naming

/-- What is left of a name without its private prefix stands in the name. -/
theorem mem_of_stripFieldPrefix? {declared rest : String}
    (h : stripFieldPrefix? declared = some rest) : ∀ c ∈ rest.toList, c ∈ declared.toList := by
  rw [stripFieldPrefix?] at h
  split at h
  · cases h
  · next found _ hfound =>
    cases h
    obtain ⟨p, -, hp⟩ := List.exists_of_findSome?_eq_some hfound
    simp only [dropStart?] at hp
    split at hp
    · cases hp
      intro c hc
      rw [String.toList_ofList] at hc
      exact List.mem_of_mem_drop hc
    · cases hp
  · cases h

/-- The logical name of a member whose name is ASCII has plain case. -/
theorem plain_propertyName {declared : String} (h : Text.Ascii declared.toList) :
    Plain (propertyName declared).toList := by
  rw [propertyName, Naming.toList_apply]
  refine (Naming.ascii_pascal ?_).plain
  cases hstrip : stripFieldPrefix? declared with
  | none => exact h
  | some rest => exact fun c hc => h c (mem_of_stripFieldPrefix? hstrip c hc)

end TypedSheets
