import TypedSheets.Cell.Build
import TypedSheets.Proofs.Cell.Items
import TypedSheets.Proofs.Cell.Scalar
import TypedSheets.Proofs.Json.Array

/-!
# Spellings of a sequence

A sequence may be given as a list, as a JSON array or as texts between commas. Integers of 64 bits
are read alike from all three, and texts that hold no comma are read back from what they are joined
to.

## Main results

* `Value.items_text` — a text that opens no array is cut at its commas
* `Value.items_arrayText` — the integers of a JSON array
* `CellType.read_sequence_spellings` — all spellings of a sequence are read alike
-/

namespace TypedSheets

open Number Text

/-- There is nothing in such a text but commas, the integers and what is around them. -/
theorem Text.mem_of_lists {isPad : Char → Bool} {is : List Int} {s : List Char}
    (h : Lists isPad is s) {c : Char} (hc : c ∈ s) :
    isPad c = true ∨ c = ',' ∨ ∃ i ∈ is, c ∈ (intText i).toList := by
  obtain ⟨parts, hparts, before, after, hbefore, hafter, rfl⟩ := h
  rw [List.mem_append, List.mem_append] at hc
  rcases hc with (hc | hc) | hc
  · exact .inl (hbefore c hc)
  · rcases mem_intercalate hc with rfl | ⟨part, hpart, hc⟩
    · exact .inr (.inl rfl)
    · obtain ⟨i, hi, front, behind, hfront, hbehind, rfl⟩ := exists_of_mem_forall₂ hparts hpart
      rw [List.mem_append, List.mem_append] at hc
      rcases hc with (hc | hc) | hc
      · exact .inl (hfront c hc)
      · exact .inr (.inr ⟨i, hi, hc⟩)
      · exact .inl (hbehind c hc)
  · exact .inl (hafter c hc)


/-- The white space of JSON is white space. -/
theorem Json.isBlankChar_of_isSpace {c : Char} (h : isSpace c = true) : isBlankChar c = true := by
  simp only [isSpace, Bool.or_eq_true, beq_iff_eq] at h
  rcases h with ((rfl | rfl) | rfl) | rfl <;> decide

theorem beq_comma_of_isBlankChar (c : Char) (h : isBlankChar c = true) : (c == ',') = false := by
  rw [beq_eq_false_iff_ne]
  rintro rfl
  exact absurd h (by decide)

/-! ### Texts between commas -/

namespace Value

variable {expected : String} {s : String}

/-- A text that is not blank and opens no array is cut at its commas. -/
theorem items_text (hblank : isBlank s = false) (hopen : (trimChars s.toList).head? ≠ some '[') :
    items expected (.text s) = .ok (((splitBy (· == ',') s.toList).map trimChars).map fun part =>
      .text (String.ofList part)) := by
  have hcut : textItems? (trimChars s.toList) =
      some (((splitBy (· == ',') s.toList).map trimChars).map fun part =>
        .text (String.ofList part)) := by
    rw [← map_trimChars_splitBy beq_comma_of_isBlankChar, textItems?.eq_def, List.map_map]
    split
    · next hnil =>
      rw [isBlank_of_trimChars_eq_nil hnil] at hblank
      cases hblank
    · next hbracket => exact absurd (by rw [hbracket]; rfl) hopen
    · rfl
  rw [items, hcut]

/-- What was joined with commas is cut into its parts. -/
theorem items_intercalate {parts : List (List Char)}
    (hs : Padded isBlankChar ([','].intercalate parts) s.toList)
    (hparts : ∀ part ∈ parts, ',' ∉ part) (hblank : isBlank s = false)
    (hopen : (trimChars s.toList).head? ≠ some '[') :
    items expected (.text s) =
      .ok ((parts.map trimChars).map fun part => .text (String.ofList part)) := by
  have hne : parts ≠ [] := by
    -- what is joined from no parts is blank
    rintro rfl
    have hall := isBlank_of_trimChars_eq_nil (trimChars_of_padded hs)
    rw [hblank] at hall
    cases hall
  have hcut : (splitBy (· == ',') s.toList).map trimChars = parts.map trimChars := by
    rw [← map_trimChars_splitBy beq_comma_of_isBlankChar, trimChars_of_padded hs,
      map_trimChars_splitBy beq_comma_of_isBlankChar, splitBy_intercalate hparts hne]
  rw [items_text hblank hopen, hcut]

/-- Decimal texts between commas are the items, without what is around them. -/
theorem items_lists {is : List Int} (h : Lists isBlankChar is s.toList) :
    items expected (.text s) = .ok (is.map fun i => .text (intText i)) := by
  have hopen : (trimChars s.toList).head? ≠ some '[' := by
    intro hbracket
    rcases mem_of_lists h (mem_of_mem_trimChars (List.mem_of_head? hbracket)) with hc | hc | hc
    · exact absurd hc (by decide)
    · exact absurd hc (by decide)
    · obtain ⟨i, -, hc⟩ := hc
      exact absurd (sign_or_isDigit_of_mem_intText hc) (by decide)
  obtain ⟨parts, hparts, hs⟩ := h
  have hcomma : ∀ part ∈ parts, ',' ∉ part := by
    intro part hpart hmem
    -- white space, digits and signs are no commas
    obtain ⟨i, -, front, behind, hfront, hbehind, rfl⟩ := exists_of_mem_forall₂ hparts hpart
    rw [List.mem_append, List.mem_append] at hmem
    rcases hmem with (hc | hc) | hc
    · exact absurd (hfront _ hc) (by decide)
    · exact absurd (sign_or_isDigit_of_mem_intText hc) (by decide)
    · exact absurd (hbehind _ hc) (by decide)
  have hcores : parts.map trimChars = is.map fun i => (intText i).toList := by
    rw [← List.forall₂_eq_eq_eq, List.forall₂_map_left_iff, List.forall₂_map_right_iff]
    exact hparts.flip.imp fun part i h => (trimChars_of_padded h).trans (trimChars_intText i)
  cases hblank : isBlank s with
  | true =>
    cases hparts with
    | nil =>
      have hnil : trimChars s.toList = [] := trimChars_of_padded hs
      rw [items, hnil]
      rfl
    | @cons i part is others hpart hothers =>
      -- the first integer is in the text, which is not blank then
      obtain ⟨before, after, -, -, hs⟩ := hs
      obtain ⟨front, behind, -, -, hpart⟩ := hpart
      obtain ⟨c, hc⟩ := List.exists_mem_of_ne_nil _ (intText_ne_nil i)
      have hjoin := (prefix_intercalate ',' part others).subset
        (hpart ▸ List.mem_append_left _ (List.mem_append_right _ hc))
      have hfilled := isBlank_eq_false (s := s)
        (hs ▸ List.mem_append_left _ (List.mem_append_right _ hjoin))
        (isBlankChar_of_mem_intText hc)
      rw [hblank] at hfilled
      cases hfilled
  | false =>
    rw [items_intercalate hs hcomma hblank hopen, hcores, List.map_map]
    simp only [Function.comp_def, String.ofList_toList]

theorem ofJsonItems_ints (xs : List Int64El) :
    ofJsonItems ((xs.map fun x => x.val).map fun i => .number (.int i)) = xs.map .int := by
  induction xs with
  | nil => rfl
  | cons x rest ih =>
    have hx : ofJson (.number (.int x.val)) = .int x := by
      rw [ofJson, IntKind.ofInt?_val]
    rw [List.map_cons, List.map_cons, ofJsonItems, hx, ih, List.map_cons]

/-- The items of a JSON array of integers of 64 bits. -/
theorem items_arrayText {xs : List Int64El} (h : Json.ArrayText (xs.map fun x => x.val) s.toList) :
    items expected (.text s) = .ok (xs.map .int) := by
  obtain ⟨inner, hinner, hs⟩ := h
  -- what is left of the text begins and ends with a bracket, and is an array as well
  have htrim : trimChars s.toList = '[' :: inner ++ [']'] := by
    rw [trimChars_of_padded (hs.mono fun _ => Json.isBlankChar_of_isSpace), trimChars_eq_self_iff,
      List.getLast?_append]
    exact ⟨by rintro c ⟨⟩; decide, by rintro c ⟨⟩; decide⟩
  have hrange : ∀ i ∈ xs.map fun x => x.val, -2 ^ 63 ≤ i ∧ i < 2 ^ 64 := by
    intro i hi
    obtain ⟨x, -, rfl⟩ := List.mem_map.mp hi
    have hlo : IntKind.i64.lo = -2 ^ 63 := by decide
    have hhi : IntKind.i64.hi < 2 ^ 64 := by decide
    exact ⟨hlo ▸ x.property.1, x.property.2.trans_lt hhi⟩
  have hcore : Json.ArrayText (xs.map fun x => x.val)
      (String.ofList ('[' :: inner ++ [']'])).toList := by
    rw [String.toList_ofList]
    exact ⟨inner, hinner, [], [], by simp, by simp, by simp⟩
  have hparse := Json.parse?_arrayText hcore hrange
  have hread : textItems? (trimChars s.toList) = some (xs.map .int) := by
    rw [htrim]
    simp only [textItems?, List.cons_append] at hparse ⊢
    rw [hparse]
    exact congrArg some (ofJsonItems_ints xs)
  rw [items, hread]

/-- Trimmed texts that hold no comma are the items of what they are joined to, unless that is blank
or opens an array. -/
theorem items_joined {ss : List String} (hss : ∀ s ∈ ss, Trimmed s ∧ ',' ∉ s.toList)
    (hblank : isBlank (",".intercalate ss) = false)
    (hopen : (",".intercalate ss).toList.head? ≠ some '[') :
    items expected (.text (",".intercalate ss)) = .ok (ss.map .text) := by
  have hjoin : (",".intercalate ss).toList = [','].intercalate (ss.map String.toList) :=
    String.toList_intercalate
  have hcomma : ∀ part ∈ ss.map String.toList, ',' ∉ part := by
    intro part hpart
    obtain ⟨s, hs, rfl⟩ := List.mem_map.mp hpart
    exact (hss s hs).2
  -- what is joined begins as one of the texts does, or with a comma
  have hhead : ∀ c ∈ (",".intercalate ss).toList.head?, isBlankChar c = false := by
    intro c hc
    rw [hjoin] at hc
    rcases mem_head?_intercalate hc with rfl | ⟨part, hpart, hc⟩
    · decide
    · obtain ⟨s, hs, rfl⟩ := List.mem_map.mp hpart
      exact (hss s hs).1.1 c hc
  have htrim : (trimChars (",".intercalate ss).toList).head? ≠ some '[' := by
    intro hbracket
    have hmem := mem_head?_of_mem_head?_trimChars hbracket
    rw [dropWhile_eq_self_iff_head?.mpr hhead] at hmem
    exact hopen hmem
  have hcores : ((ss.map String.toList).map trimChars).map
      (fun part => Value.text (String.ofList part)) = ss.map .text := by
    rw [List.map_map, List.map_map]
    refine List.map_congr_left fun s hs => ?_
    exact congrArg Value.text ((trim_eq_self_iff s).mpr (hss s hs).1)
  rw [items_intercalate ⟨[], [], by simp, by simp, by simp [hjoin]⟩ hcomma hblank htrim, hcores]

end Value

/-! ### Sequences -/

theorem ScalarType.readInt_intText (x : Int64El) :
    readInt .i64 (.text (intText x.val)) = .ok x := by
  rw [readInt_eq_ok_iff, readWide_intText, if_pos (holds_i128_of_i64 x.property)]

theorem ScalarType.readInt_int (x : Int64El) : readInt .i64 (.int x) = .ok x :=
  readInt_eq_ok_iff.mpr rfl

namespace CellType

/-- A sequence is read from items of which each is read as the element in its place. -/
theorem read_sequence_of_items {form : SequenceForm} {t : CellType} {n : Naming} {v : Value}
    {g : t.El → Value} {xs : List t.El} (hitems : v.items form.word = .ok (xs.map g))
    (hread : ∀ x, t.read n (g x) = .ok x) : (sequence form t).read n v = .ok xs := by
  have heach : readEach (t.read n) (xs.map g) = .ok (xs.map id) := readEach_map fun x _ => hread x
  rw [List.map_id] at heach
  change readSequence form.word (t.read n) v = .ok xs
  rw [readSequence, hitems]
  exact heach

/-- A sequence of integers of 64 bits is read alike from the list of them, from a JSON array and
from their decimal texts between commas, with any white space. Trimmed texts that hold no comma are
read back from what they are joined to with commas, unless that is blank or opens an array. -/
theorem read_sequence_spellings (form : SequenceForm) (n : Naming) :
    (∀ xs : List Int64El,
      (sequence form (int .i64)).read n (.list (xs.map .int)) = .ok xs ∧
      ∀ s : String,
        Json.ArrayText (xs.map fun x => x.val) s.toList ∨
            Lists isBlankChar (xs.map fun x => x.val) s.toList →
          (sequence form (int .i64)).read n (.text s) = .ok xs) ∧
    ∀ ss : List String, (∀ s ∈ ss, Trimmed s ∧ ',' ∉ s.toList) →
      isBlank (",".intercalate ss) = false → (",".intercalate ss).toList.head? ≠ some '[' →
        (sequence form text).read n (.text (",".intercalate ss)) = .ok ss := by
  -- in each spelling the items are found, and then each of them is read
  refine ⟨fun xs => ⟨read_sequence_of_items rfl ScalarType.readInt_int, ?_⟩, ?_⟩
  · rintro s (harray | hlist)
    · exact read_sequence_of_items (Value.items_arrayText harray) ScalarType.readInt_int
    · refine read_sequence_of_items ?_ ScalarType.readInt_intText
      rw [Value.items_lists hlist, List.map_map]
      rfl
  · intro ss hss hblank hopen
    exact read_sequence_of_items (Value.items_joined hss hblank hopen) fun s => rfl

/-- Three integers in a queue, and three texts of which the first is empty. -/
theorem read_sequence_spellings_queue :
    let xs : List Int64El := [⟨1, by decide⟩, ⟨-20, by decide⟩, ⟨3, by decide⟩]
    (sequence .queue (int .i64)).read .pascal (.text " [ 1 , -20,3] ") = .ok xs ∧
      (sequence .queue (int .i64)).read .pascal (.text "1, -20 ,3") = .ok xs ∧
      (sequence .queue text).read .pascal (.text ",a b,c") = .ok ["", "a b", "c"] := by
  intro xs
  obtain ⟨hints, htexts⟩ := read_sequence_spellings .queue .pascal
  have hone : (intText 1).toList = ['1'] := by decide +kernel
  have htwenty : (intText (-20)).toList = ['-', '2', '0'] := by decide +kernel
  have hthree : (intText 3).toList = ['3'] := by decide +kernel
  -- the same three numbers, once with the padding of JSON and once with that of a plain list
  have hlists : ∀ isPad : Char → Bool, isPad ' ' = true →
      Lists isPad [1, -20, 3] " 1 , -20,3".toList ∧ Lists isPad [1, -20, 3] "1, -20 ,3".toList := by
    intro isPad hpad
    have hspace : ∀ c ∈ [' '], isPad c = true := List.forall_mem_singleton.mpr hpad
    have hnone : ∀ c ∈ [], isPad c = true := List.forall_mem_nil _
    refine ⟨⟨[" 1 ".toList, " -20".toList, "3".toList], ?_, [], [], hnone, hnone, by decide⟩,
      ⟨["1".toList, " -20 ".toList, "3".toList], ?_, [], [], hnone, hnone, by decide⟩⟩
    · exact .cons ⟨[' '], [' '], hspace, hspace, by rw [hone]; rfl⟩ <|
        .cons ⟨[' '], [], hspace, hnone, by rw [htwenty]; rfl⟩ <|
        .cons ⟨[], [], hnone, hnone, by rw [hthree]; rfl⟩ .nil
    · exact .cons ⟨[], [], hnone, hnone, by rw [hone]; rfl⟩ <|
        .cons ⟨[' '], [' '], hspace, hspace, by rw [htwenty]; rfl⟩ <|
        .cons ⟨[], [], hnone, hnone, by rw [hthree]; rfl⟩ .nil
  refine ⟨(hints xs).2 _ (.inl ⟨_, (hlists Json.isSpace rfl).1, ?_⟩),
    (hints xs).2 _ (.inr (hlists isBlankChar rfl).2), htexts ["", "a b", "c"] ?_ ?_ ?_⟩
  · exact ⟨[' '], [' '], List.forall_mem_singleton.mpr rfl, List.forall_mem_singleton.mpr rfl,
      by decide⟩
  · intro s hs
    simp only [List.mem_cons, List.not_mem_nil, or_false] at hs
    rcases hs with rfl | rfl | rfl <;>
      exact ⟨(trim_eq_self_iff _).mp (by decide), by decide⟩
  · decide
  · decide

end CellType

end TypedSheets
