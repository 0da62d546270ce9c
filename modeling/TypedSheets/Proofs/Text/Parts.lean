import Mathlib.Data.List.DropRight
import Mathlib.Data.List.Forall2
import TypedSheets.Proofs.Number.Canonical

/-!
# Trimmed texts and their parts

Trimming a text drops the white space at its ends and nothing else, so it changes the text exactly
if there is some, and it does not change it again.

A text that is joined from parts is split into them again, and white space around a text only pads
its first and its last part.

## Main definitions

* `Text.Trimmed` — a text that neither begins nor ends with white space
* `Text.Padded` — a text with characters of a class around it
* `Text.Lists` — a text holds the decimal texts of integers between commas

## Main results

* `Text.trim_eq_self_iff` — trimming leaves these texts as they are, and no others
* `Text.trim_trim` — a text that was trimmed is one of them
* `Text.trimChars_of_padded` — white space around a text makes no difference
* `Text.splitBy_intercalate` — the parts of a joined text
* `Text.map_trimChars_splitBy` — the trimmed parts of a text are those of the trimmed text
-/

namespace TypedSheets.Text

/-- A text neither begins nor ends with white space. -/
def Trimmed (s : String) : Prop :=
  (∀ c ∈ s.toList.head?, isBlankChar c = false) ∧ ∀ c ∈ s.toList.getLast?, isBlankChar c = false

theorem trimChars_eq (s : List Char) :
    trimChars s = (s.dropWhile isBlankChar).rdropWhile isBlankChar := rfl

theorem dropWhile_eq_self_iff_head? {s : List Char} :
    s.dropWhile isBlankChar = s ↔ ∀ c ∈ s.head?, isBlankChar c = false := by
  rw [List.dropWhile_eq_self_iff]
  cases s <;> simp

theorem rdropWhile_eq_self_iff_getLast? {s : List Char} :
    s.rdropWhile isBlankChar = s ↔ ∀ c ∈ s.getLast?, isBlankChar c = false := by
  rw [List.rdropWhile_eq_self_iff]
  obtain rfl | ⟨front, c, rfl⟩ := List.eq_nil_or_concat s <;> simp

theorem trimChars_eq_self_iff {s : List Char} : trimChars s = s ↔
    (∀ c ∈ s.head?, isBlankChar c = false) ∧ ∀ c ∈ s.getLast?, isBlankChar c = false := by
  rw [← dropWhile_eq_self_iff_head?, ← rdropWhile_eq_self_iff_getLast?, trimChars_eq]
  constructor
  · intro h
    -- nothing is dropped at the end, so nothing was dropped in front
    have hlength : s.length ≤ (s.dropWhile isBlankChar).length := by
      conv_lhs => rw [← h]
      exact (List.rdropWhile_prefix _ _).length_le
    have hsame : s.dropWhile isBlankChar = s :=
      (List.dropWhile_suffix _).eq_of_length_le hlength
    rw [hsame] at h
    exact ⟨hsame, h⟩
  · rintro ⟨hsame, h⟩
    rw [hsame, h]

/-- What is left begins as it did before the end was trimmed. -/
theorem mem_head?_of_mem_head?_trimChars {s : List Char} {c : Char}
    (h : c ∈ (trimChars s).head?) : c ∈ (s.dropWhile isBlankChar).head? := by
  obtain ⟨tail, htail⟩ := List.rdropWhile_prefix isBlankChar (s.dropWhile isBlankChar)
  rw [← htail, List.head?_append, ← trimChars_eq, Option.mem_def.mp h]
  rfl

theorem trimChars_trimChars (s : List Char) : trimChars (trimChars s) = trimChars s := by
  rw [trimChars_eq_self_iff, ← dropWhile_eq_self_iff_head?, ← rdropWhile_eq_self_iff_getLast?,
    trimChars_eq]
  refine ⟨?_, List.rdropWhile_idempotent _ _⟩
  rw [dropWhile_eq_self_iff_head?]
  intro c hc
  exact dropWhile_eq_self_iff_head?.mp (List.dropWhile_idempotent _ _) c
    (mem_head?_of_mem_head?_trimChars hc)

/-- Trimming leaves a text as it is if there is nothing to trim, and only then. -/
theorem trim_eq_self_iff (s : String) : trim s = s ↔ Trimmed s := by
  rw [Trimmed, ← trimChars_eq_self_iff, ← toList_trim, String.toList_inj]

theorem trim_trim (s : String) : trim (trim s) = trim s := by
  rw [← String.toList_inj, toList_trim, toList_trim, trimChars_trimChars]

theorem trim_of_isBlank {s : String} (h : isBlank s = true) : trim s = "" := by
  have hnil : s.toList.dropWhile isBlankChar = [] :=
    List.dropWhile_eq_nil_iff.mpr (List.all_eq_true.mp h)
  rw [← String.toList_inj, toList_trim, trimChars_eq, hnil]
  rfl

theorem trim_intText (i : Int) : trim (Number.intText i) = Number.intText i := by
  rw [← String.toList_inj, toList_trim, Number.trimChars_intText]

/-! ### Padding -/

/-- A text is another one with characters of a class around it. -/
def Padded (isPad : Char → Bool) (core s : List Char) : Prop :=
  ∃ before after, (∀ c ∈ before, isPad c = true) ∧ (∀ c ∈ after, isPad c = true) ∧
    s = before ++ core ++ after

theorem Padded.mono {isPad isPad' : Char → Bool} {core s : List Char} (h : Padded isPad core s)
    (hpad : ∀ c, isPad c = true → isPad' c = true) : Padded isPad' core s := by
  obtain ⟨before, after, hbefore, hafter, rfl⟩ := h
  exact ⟨before, after, fun c hc => hpad c (hbefore c hc), fun c hc => hpad c (hafter c hc), rfl⟩

/-- What is trimmed off stands around what is left. -/
theorem padded_trimChars (s : List Char) : Padded isBlankChar (trimChars s) s := by
  refine ⟨s.takeWhile isBlankChar, (s.dropWhile isBlankChar).rtakeWhile isBlankChar,
    fun c hc => List.mem_takeWhile_imp hc, fun c hc => List.mem_rtakeWhile_imp hc, ?_⟩
  rw [trimChars_eq, List.append_assoc, List.rdropWhile_append_rtakeWhile,
    List.takeWhile_append_dropWhile]

theorem rdropWhile_append_blank (s : List Char) {after : List Char}
    (hafter : ∀ c ∈ after, isBlankChar c = true) :
    (s ++ after).rdropWhile isBlankChar = s.rdropWhile isBlankChar := by
  induction after using List.reverseRecOn with
  | nil => rw [List.append_nil]
  | append_singleton front c ih =>
    rw [← List.append_assoc, List.rdropWhile_concat_pos _ _ _ (hafter c (by simp)),
      ih fun d hd => hafter d (by simp [hd])]

theorem mem_of_mem_trimChars {s : List Char} {c : Char} (h : c ∈ trimChars s) : c ∈ s := by
  obtain ⟨before, after, -, -, hs⟩ := padded_trimChars s
  rw [hs]
  exact List.mem_append_left _ (List.mem_append_right _ h)

theorem isBlank_of_trimChars_eq_nil {s : String} (h : trimChars s.toList = []) :
    isBlank s = true := by
  obtain ⟨before, after, hbefore, hafter, hs⟩ := padded_trimChars s.toList
  rw [isBlank, hs, h, List.append_nil, List.all_append, List.all_eq_true.mpr hbefore,
    List.all_eq_true.mpr hafter]
  rfl

theorem isBlank_trim (s : String) : isBlank (trim s) = isBlank s := by
  rw [Bool.eq_iff_iff]
  constructor
  · intro h
    have hnil := congrArg String.toList (trim_of_isBlank h)
    rw [trim_trim, toList_trim] at hnil
    exact isBlank_of_trimChars_eq_nil hnil
  · intro h
    rw [trim_of_isBlank h]
    rfl

/-- White space around a text is trimmed off together with its own. -/
theorem trimChars_of_padded {core s : List Char} (h : Padded isBlankChar core s) :
    trimChars s = trimChars core := by
  obtain ⟨before, after, hbefore, hafter, rfl⟩ := h
  rw [trimChars_eq, trimChars_eq, List.append_assoc, List.dropWhile_append_of_pos hbefore,
    List.dropWhile_append]
  split
  · next hcore => rw [List.isEmpty_iff.mp hcore, List.dropWhile_eq_nil_iff.mpr hafter]
  · exact rdropWhile_append_blank _ hafter

end TypedSheets.Text

/-! ## Parts of a text -/

namespace TypedSheets.Text

theorem splitBy_eq_splitOnP (isSep : Char → Bool) (s : List Char) :
    splitBy isSep s = s.splitOnP isSep := by
  induction s with
  | nil => rfl
  | cons c rest ih =>
    rw [splitBy, List.splitOnP_cons_eq_if_modifyHead, ih]
    split
    · rfl
    · cases hparts : rest.splitOnP isSep with
      | nil => exact absurd hparts (List.splitOnP_ne_nil _ _)
      | cons part parts => rfl

/-- What was joined with a separator is split into what it was joined from. -/
theorem splitBy_intercalate {sep : Char} {parts : List (List Char)}
    (hparts : ∀ part ∈ parts, sep ∉ part) (hne : parts ≠ []) :
    splitBy (· == sep) ([sep].intercalate parts) = parts := by
  rw [splitBy_eq_splitOnP, ← List.splitOn_eq_splitOnP, List.splitOn_intercalate sep hparts hne]

theorem mem_intercalate {sep c : Char} {parts : List (List Char)}
    (h : c ∈ [sep].intercalate parts) : c = sep ∨ ∃ part ∈ parts, c ∈ part := by
  induction parts with
  | nil => cases h
  | cons part others ih =>
    cases others with
    | nil =>
      rw [List.intercalate_singleton] at h
      exact .inr ⟨part, List.mem_cons_self, h⟩
    | cons other others =>
      rw [List.intercalate_cons_cons, List.mem_append, List.mem_append,
        List.mem_singleton] at h
      rcases h with (h | h) | h
      · exact .inr ⟨part, List.mem_cons_self, h⟩
      · exact .inl h
      · exact (ih h).imp_right fun ⟨p, hp, hc⟩ => ⟨p, List.mem_cons_of_mem _ hp, hc⟩

theorem prefix_intercalate (sep : Char) (part : List Char) (others : List (List Char)) :
    part <+: [sep].intercalate (part :: others) := by
  cases others with
  | nil => exact ⟨[], by simp⟩
  | cons other others => exact ⟨_, by rw [List.intercalate_cons_cons, List.append_assoc]⟩

/-- A joined text begins with its first part, or with a separator if that is empty. -/
theorem mem_head?_intercalate {sep c : Char} {parts : List (List Char)}
    (h : c ∈ ([sep].intercalate parts).head?) : c = sep ∨ ∃ part ∈ parts, c ∈ part.head? := by
  cases parts with
  | nil => cases h
  | cons part others =>
    cases others with
    | nil =>
      rw [List.intercalate_singleton] at h
      exact .inr ⟨part, List.mem_cons_self, h⟩
    | cons other others =>
      rw [List.intercalate_cons_cons] at h
      cases part with
      | nil =>
        cases h
        exact .inl rfl
      | cons d tail => exact .inr ⟨d :: tail, List.mem_cons_self, h⟩

theorem splitBy_ne_nil (isSep : Char → Bool) (s : List Char) : splitBy isSep s ≠ [] :=
  List.ne_nil_of_length_eq_add_one (length_splitBy isSep s)

section Ends

variable {isSep : Char → Bool}

/-- What stands in front of a text without a separator is in front of its first part. -/
theorem exists_splitBy_append_left {before : List Char} (h : ∀ c ∈ before, isSep c = false)
    (s : List Char) : ∃ first others, splitBy isSep s = first :: others ∧
      splitBy isSep (before ++ s) = (before ++ first) :: others := by
  induction before with
  | nil =>
    obtain ⟨first, others, hs⟩ := List.exists_cons_of_ne_nil (splitBy_ne_nil isSep s)
    exact ⟨first, others, hs, hs⟩
  | cons c before ih =>
    obtain ⟨hc, hbefore⟩ := List.forall_mem_cons.mp h
    obtain ⟨first, others, hs, hsplit⟩ := ih hbefore
    refine ⟨first, others, hs, ?_⟩
    simp [splitBy, hc, hsplit]

/-- What stands behind a text without a separator is behind its last part. -/
theorem exists_splitBy_append_right {after : List Char} (h : ∀ c ∈ after, isSep c = false)
    (s : List Char) : ∃ others last, splitBy isSep s = others ++ [last] ∧
      splitBy isSep (s ++ after) = others ++ [last ++ after] := by
  induction s with
  | nil =>
    obtain ⟨first, others, hnil, hafter⟩ := exists_splitBy_append_left h []
    cases hnil
    rw [List.append_nil] at hafter
    exact ⟨[], [], rfl, hafter⟩
  | cons c rest ih =>
    obtain ⟨others, last, hrest, hsplit⟩ := ih
    rw [List.cons_append, splitBy, splitBy, hrest, hsplit]
    split
    · exact ⟨[] :: others, last, rfl, rfl⟩
    · -- the character joins the first part, which may be the last one
      cases others with
      | nil => exact ⟨[], c :: last, rfl, rfl⟩
      | cons first others => exact ⟨(c :: first) :: others, last, rfl, rfl⟩

end Ends

/-- If no separator is white space, the parts of a text are those of the trimmed text, up to white
space around them. -/
theorem map_trimChars_splitBy {isSep : Char → Bool}
    (hsep : ∀ c, isBlankChar c = true → isSep c = false) (s : List Char) :
    (splitBy isSep (trimChars s)).map trimChars = (splitBy isSep s).map trimChars := by
  obtain ⟨before, after, hbefore, hafter, hs⟩ := padded_trimChars s
  generalize trimChars s = core at hs ⊢
  obtain ⟨first, others, hcore, hfront⟩ :=
    exists_splitBy_append_left (fun c hc => hsep c (hbefore c hc)) (core ++ after)
  obtain ⟨front, last, hcore', hback⟩ :=
    exists_splitBy_append_right (fun c hc => hsep c (hafter c hc)) core
  have hfirst : trimChars (before ++ first) = trimChars first :=
    trimChars_of_padded ⟨before, [], hbefore, by simp, by simp⟩
  have hlast : trimChars (last ++ after) = trimChars last :=
    trimChars_of_padded ⟨[], after, by simp, hafter, by simp⟩
  calc (splitBy isSep core).map trimChars
      = (splitBy isSep (core ++ after)).map trimChars := by simp [hcore', hback, hlast]
    _ = (splitBy isSep s).map trimChars := by
        rw [hs, List.append_assoc, hfront, hcore, List.map_cons, List.map_cons, hfirst]

/-! ### Integers between commas -/

/-- A text holds the decimal texts of integers with commas between them, and characters of a class
around each. -/
def Lists (isPad : Char → Bool) (is : List Int) (s : List Char) : Prop :=
  ∃ parts, List.Forall₂ (fun i part => Padded isPad (Number.intText i).toList part) is parts ∧
    Padded isPad ([','].intercalate parts) s

/-- A text of integers has room for a comma behind each but the last. -/
theorem length_le_of_lists {isPad : Char → Bool} {is : List Int} {s : List Char}
    (h : Lists isPad is s) : is.length ≤ s.length + 1 := by
  obtain ⟨parts, hparts, before, after, -, -, rfl⟩ := h
  have hjoin : parts.length ≤ ([','].intercalate parts).length + 1 := by
    clear hparts
    induction parts with
    | nil => exact Nat.zero_le _
    | cons part others ih =>
      cases others with
      | nil => simp
      | cons other others =>
        rw [List.intercalate_cons_cons, List.length_append, List.length_append]
        simp only [List.length_cons, List.length_nil] at ih ⊢
        omega
  rw [hparts.length_eq, List.length_append, List.length_append]
  omega

end TypedSheets.Text
