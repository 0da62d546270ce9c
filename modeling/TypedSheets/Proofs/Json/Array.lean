import Mathlib.Data.List.Basic
import TypedSheets.Json.Reader
import TypedSheets.Proofs.Number.Canonical
import TypedSheets.Proofs.Text.Parts

/-!
# Arrays of integers in JSON text

The JSON text of a list of integers of 64 bits is read as that list, whatever white space stands
between its tokens.

## Main definitions

* `Json.ArrayText` — the texts of a list of integers

## Main results

* `Json.number?_intText` — a number is read up to its end
* `Json.items?_intTexts`, `Json.value?_lists` — numbers between commas are read up to the closing
  bracket
* `Json.parse?_arrayText` — the whole text is read as the list
-/

namespace TypedSheets

open Number Text

namespace JsonNumber

/-- A number does not shrink when digits are put behind it. -/
theorem le_foldl_digitValue (digits : List Char) (word : Nat) :
    word ≤ digits.foldl (fun n c => 10 * n + digitValue c) word := by
  induction digits generalizing word with
  | nil => exact Nat.le_refl word
  | cons c rest ih =>
    have hrest := ih (10 * word + digitValue c)
    rw [List.foldl_cons]
    omega

/-- Digits are gathered into one word as long as their number fits. -/
theorem gather_eq {digits : List Char} {word : Nat}
    (h : digits.foldl (fun n c => 10 * n + digitValue c) word ≤ maxWord) :
    gather word digits = (digits.foldl (fun n c => 10 * n + digitValue c) word, []) := by
  induction digits generalizing word with
  | nil => rfl
  | cons c rest ih =>
    rw [List.foldl_cons] at h
    rw [gather, if_pos ((le_foldl_digitValue rest _).trans h), ih h, List.foldl_cons]

theorem gather_natChars {n : Nat} (h : n ≤ maxWord) : gather 0 (natChars n) = (n, []) := by
  have hvalue : (natChars n).foldl (fun n c => 10 * n + digitValue c) 0 = n :=
    digitsValue_natChars n
  have hgather : gather 0 (natChars n) = ((natChars n).foldl _ 0, []) := gather_eq (hvalue.symm ▸ h)
  rwa [hvalue] at hgather

/-- The token of an integer that a word of 64 bits holds, with sign if it is negative. -/
theorem ofToken?_intText {i : Int} (hlo : -2 ^ 63 ≤ i) (hhi : i < 2 ^ 64) :
    ofToken? ⟨decide (i < 0), natChars i.natAbs, none, none⟩ = some (.int i) := by
  have hmax : maxWord = 2 ^ 64 - 1 := by decide
  rw [ofToken?, gather_natChars (by omega)]
  by_cases hneg : i < 0
  · have hzero : (i.natAbs == 0) = false := by
      rw [beq_eq_false_iff_ne]
      omega
    have hword : ¬ 0x8000000000000000 < i.natAbs := by omega
    have hvalue : -(i.natAbs : Int) = i := by omega
    simp only [hneg, hzero, hword, hvalue, decide_true, decide_false, List.isEmpty_nil,
      Bool.not_true, Bool.or_self, Bool.false_eq_true, if_false]
  · have hvalue : (i.natAbs : Int) = i := by omega
    simp only [hneg, hvalue, decide_false, List.isEmpty_nil, Bool.not_true, Bool.not_false,
      Bool.false_eq_true, if_false, if_true]

end JsonNumber

namespace Json

/-! ### Numbers -/

/-- A number does not go on with that text. -/
def NumberEnds (rest : List Char) : Prop :=
  ∀ c ∈ rest.head?, c.isDigit = false ∧ c ≠ '.' ∧ c ≠ 'e' ∧ c ≠ 'E'

section Number

variable {rest : List Char} (hrest : NumberEnds rest)

include hrest

theorem whole?_natChars (n : Nat) : whole? (natChars n ++ rest) = some (natChars n, rest) := by
  have hdigits := isDigit_of_mem_natChars n
  have hnone : rest.takeWhile Char.isDigit = [] ∧ rest.dropWhile Char.isDigit = rest := by
    cases rest with
    | nil => exact ⟨rfl, rfl⟩
    | cons c tail =>
      have hc := (hrest c rfl).1
      simp [hc]
  have htake : (natChars n ++ rest).takeWhile Char.isDigit = natChars n := by
    rw [List.takeWhile_append_of_pos hdigits, hnone.1, List.append_nil]
  have hdrop : (natChars n ++ rest).dropWhile Char.isDigit = rest := by
    rw [List.dropWhile_append_of_pos hdigits, hnone.2]
  rw [whole?, htake, hdrop]
  split
  · next hnil => exact absurd hnil (natChars_ne_nil n)
  · next c tail hzero =>
    -- only zero begins with a zero
    by_cases hn : n = 0
    · rw [hn, natChars_of_lt (by decide)] at hzero
      cases hzero
    · have hhead := head?_natChars hn
      rw [hzero] at hhead
      exact absurd rfl hhead
  · rfl

theorem fraction?_of_ends : fraction? rest = some (none, rest) := by
  rw [fraction?.eq_def]
  split
  · exact absurd rfl (hrest '.' rfl).2.1
  · rfl

theorem exponent?_of_ends : exponent? rest = some (none, rest) := by
  cases rest with
  | nil => rfl
  | cons c tail =>
    obtain ⟨-, -, he, hE⟩ := hrest c rfl
    simp [exponent?, he, hE]

/-- The text of an integer is read as the integer, up to where it ends. -/
theorem number?_intText {i : Int} (hlo : -2 ^ 63 ≤ i) (hhi : i < 2 ^ 64) :
    number? ((intText i).toList ++ rest) = some (.int i, rest) := by
  have htoken := JsonNumber.ofToken?_intText hlo hhi
  rw [toList_intText]
  split
  · next hneg =>
    rw [decide_eq_true hneg] at htoken
    simp [number?, whole?_natChars hrest, fraction?_of_ends hrest, exponent?_of_ends hrest, htoken]
  · next hneg =>
    rw [decide_eq_false hneg] at htoken
    -- a number without a sign begins with a digit, not with the sign
    obtain ⟨c, tail, hcons⟩ := List.exists_cons_of_ne_nil (natChars_ne_nil i.natAbs)
    have hsign : c ≠ '-' := by
      rintro rfl
      exact absurd (isDigit_of_mem_natChars i.natAbs '-' (hcons ▸ List.mem_cons_self)) (by decide)
    have hwhole := whole?_natChars hrest i.natAbs
    rw [hcons] at hwhole htoken ⊢
    rw [List.cons_append] at hwhole ⊢
    simp [number?, hsign, hwhole, fraction?_of_ends hrest, exponent?_of_ends hrest, htoken]

end Number

/-! ### White space -/

theorem skipSpace_append {before : List Char} (h : ∀ c ∈ before, isSpace c = true)
    (s : List Char) : skipSpace (before ++ s) = skipSpace s :=
  List.dropWhile_append_of_pos h

theorem skipSpace_cons {c : Char} (h : isSpace c = false) (s : List Char) :
    skipSpace (c :: s) = c :: s :=
  List.dropWhile_cons_of_neg (by simp [h])

theorem skipSpace_skipSpace (s : List Char) : skipSpace (skipSpace s) = skipSpace s :=
  List.dropWhile_idempotent _ _

/-- White space in front of a value makes no difference. -/
theorem value?_congr {s s' : List Char} (h : skipSpace s = skipSpace s') (fuel depth : Nat) :
    value? fuel depth s = value? fuel depth s' := by
  cases fuel with
  | zero => rfl
  | succ fuel => rw [value?, value?, h]

theorem items?_congr {s s' : List Char} (h : skipSpace s = skipSpace s') (fuel depth : Nat) :
    items? fuel depth s = items? fuel depth s' := by
  cases fuel with
  | zero => rfl
  | succ fuel => rw [items?, items?, value?_congr h]

/-- White space and then a comma or a bracket end a number. -/
theorem numberEnds_append {after : List Char} (h : ∀ c ∈ after, isSpace c = true) {c : Char}
    (hc : c = ',' ∨ c = ']') (rest : List Char) : NumberEnds (after ++ c :: rest) := by
  intro d hd
  cases after with
  | nil =>
    cases hd
    rcases hc with rfl | rfl <;> decide
  | cons b after =>
    cases hd
    have hspace := h d List.mem_cons_self
    simp only [isSpace, Bool.or_eq_true, beq_iff_eq] at hspace
    rcases hspace with ((rfl | rfl) | rfl) | rfl <;> decide

/-! ### Arrays -/

theorem exists_intText_eq_cons (i : Int) :
    ∃ c tail, (intText i).toList = c :: tail ∧ (c = '-' ∨ c.isDigit = true) := by
  obtain ⟨c, tail, hcons⟩ := List.exists_cons_of_ne_nil (intText_ne_nil i)
  exact ⟨c, tail, hcons, sign_or_isDigit_of_mem_intText (hcons ▸ List.mem_cons_self)⟩

theorem skipSpace_intText (i : Int) (rest : List Char) :
    skipSpace ((intText i).toList ++ rest) = (intText i).toList ++ rest := by
  obtain ⟨c, tail, hcons, hc⟩ := exists_intText_eq_cons i
  have hspace : isSpace c = false := by
    rw [← Bool.not_eq_true]
    intro hspace
    simp only [isSpace, Bool.or_eq_true, beq_iff_eq] at hspace
    rcases hspace with ((rfl | rfl) | rfl) | rfl <;> simp at hc
  rw [hcons, List.cons_append, skipSpace_cons hspace]

theorem value?_intText {rest : List Char} (hrest : NumberEnds rest) {i : Int}
    (hlo : -2 ^ 63 ≤ i) (hhi : i < 2 ^ 64) (fuel depth : Nat) :
    value? (fuel + 1) depth ((intText i).toList ++ rest) = some (.number (.int i), rest) := by
  have hnumber := number?_intText hrest hlo hhi
  obtain ⟨c, tail, hcons, hc⟩ := exists_intText_eq_cons i
  rw [value?, skipSpace_intText, hcons, List.cons_append]
  rw [hcons, List.cons_append] at hnumber
  -- a sign or a digit opens nothing but a number
  have hother : ∀ d ∈ ['"', '[', '{', 'n', 't', 'f'], c ≠ d := by
    rintro d hd rfl
    simp only [List.mem_cons, List.not_mem_nil, or_false] at hd
    rcases hd with rfl | rfl | rfl | rfl | rfl | rfl <;> simp at hc
  simp only [List.mem_cons, List.not_mem_nil, or_false, forall_eq_or_imp, forall_eq] at hother
  simp [hother, hnumber]

/-- Numbers between commas are read up to the bracket behind them. -/
theorem items?_intTexts {is : List Int} {parts : List (List Char)} (hne : is ≠ [])
    (hparts : List.Forall₂ (fun i part => Padded isSpace (intText i).toList part) is parts)
    (hrange : ∀ i ∈ is, -2 ^ 63 ≤ i ∧ i < 2 ^ 64) {fuel : Nat} (hfuel : is.length < fuel)
    (depth : Nat) {after : List Char} (hafter : ∀ c ∈ after, isSpace c = true)
    (rest : List Char) :
    items? fuel depth ([','].intercalate parts ++ (after ++ ']' :: rest)) =
      some (is.map fun i => .number (.int i), rest) := by
  -- each item leaves one of the fuel to those behind it, and its number takes one
  induction hparts generalizing fuel with
  | nil => exact absurd rfl hne
  | @cons i part is parts hpart hothers ih =>
    obtain ⟨⟨hlo, hhi⟩, hrange⟩ := List.forall_mem_cons.mp hrange
    obtain ⟨front, behind, hfront, hbehind, rfl⟩ := hpart
    obtain ⟨fuel, rfl⟩ : ∃ n, fuel = n + 2 := ⟨fuel - 2, by rw [List.length_cons] at hfuel; omega⟩
    have hitem : ∀ {space : List Char}, (∀ c ∈ space, isSpace c = true) → ∀ {c : Char},
        c = ',' ∨ c = ']' → ∀ tail,
        value? (fuel + 1) depth (front ++ (intText i).toList ++ (space ++ c :: tail)) =
          some (.number (.int i), space ++ c :: tail) := by
      intro space hspace c hc tail
      rw [List.append_assoc, value?_congr (skipSpace_append hfront _),
        value?_intText (numberEnds_append hspace hc tail) hlo hhi]
    cases hothers with
    | nil =>
      have hspace : ∀ c ∈ behind ++ after, isSpace c = true :=
        List.forall_mem_append.mpr ⟨hbehind, hafter⟩
      have hvalue := hitem hspace (.inr rfl) rest
      rw [List.intercalate_singleton, List.append_assoc _ behind, ← List.append_assoc behind,
        items?, hvalue]
      simp only [skipSpace_append hspace]
      rfl
    | cons hother hothers =>
      have hrest := ih (List.cons_ne_nil _ _) hrange
        (show _ < fuel + 1 by simp only [List.length_cons] at hfuel ⊢; omega)
      have hvalue := fun tail => hitem hbehind (.inl rfl) tail
      rw [List.intercalate_cons_cons, List.append_assoc _ _ (after ++ _),
        List.append_assoc _ [','], List.append_assoc _ behind, List.singleton_append, items?,
        hvalue]
      simp only [skipSpace_append hbehind]
      rw [skipSpace_cons (by decide)]
      simp only [hrest]
      rfl

/-- A closing bracket begins no item. -/
theorem items?_closing (fuel depth : Nat) (rest : List Char) :
    items? fuel depth (']' :: rest) = none := by
  cases fuel with
  | zero => rfl
  | succ fuel =>
    cases fuel with
    | zero => rfl
    | succ fuel => simp [items?, value?, skipSpace_cons, isSpace, number?, whole?]

/-- Numbers between brackets are an array. -/
theorem value?_lists {is : List Int} {inner : List Char} (h : Lists isSpace is inner)
    (hrange : ∀ i ∈ is, -2 ^ 63 ≤ i ∧ i < 2 ^ 64) {fuel : Nat} (hfuel : is.length < fuel)
    (depth : Nat) (rest : List Char) :
    value? (fuel + 1) (depth + 1) ('[' :: (inner ++ ']' :: rest)) =
      some (.array (is.map fun i => .number (.int i)), rest) := by
  obtain ⟨parts, hparts, before, after, hbefore, hafter, rfl⟩ := h
  simp only [value?, skipSpace_cons (show isSpace '[' = false from rfl)]
  cases hparts with
  | nil =>
    have hempty : skipSpace (before ++ [','].intercalate [] ++ after ++ ']' :: rest) =
        ']' :: rest := by
      rw [List.intercalate_nil, List.append_nil,
        skipSpace_append (List.forall_mem_append.mpr ⟨hbefore, hafter⟩),
        skipSpace_cons (by decide)]
    simp only [hempty, List.map_nil]
  | cons hpart hothers =>
    have hread := items?_intTexts (List.cons_ne_nil _ _) (.cons hpart hothers) hrange hfuel depth
      hafter rest
    rw [items?_congr (skipSpace_skipSpace _).symm] at hread
    rw [List.append_assoc, List.append_assoc, skipSpace_append hbefore]
    split
    · next hclosing =>
      -- an array that is closed at once has no items to read
      rw [hclosing, items?_closing] at hread
      cases hread
    · rw [hread]
      rfl

/-- The texts of an array of integers: white space around the brackets, and around each number. -/
def ArrayText (is : List Int) (s : List Char) : Prop :=
  ∃ inner, Lists isSpace is inner ∧ Padded isSpace ('[' :: inner ++ [']']) s

/-- The texts of an array of integers that words of 64 bits hold are read as the array. -/
theorem parse?_arrayText {is : List Int} {text : String} (h : ArrayText is text.toList)
    (hrange : ∀ i ∈ is, -2 ^ 63 ≤ i ∧ i < 2 ^ 64) :
    parse? text = some (.array (is.map fun i => .number (.int i))) := by
  obtain ⟨inner, hinner, front, behind, hfront, hbehind, htext⟩ := h
  -- an item takes one of the fuel, and there are more characters than items
  have hfuel : is.length < 2 * text.toList.length + 1 := by
    have hlength := length_le_of_lists hinner
    rw [htext]
    simp only [List.length_append, List.length_cons] at hlength ⊢
    omega
  have hspace : skipSpace text.toList = skipSpace ('[' :: (inner ++ ']' :: behind)) := by
    rw [htext, List.append_assoc, skipSpace_append hfront, List.append_assoc,
      List.singleton_append, List.cons_append]
  have hend : skipSpace behind = [] := List.dropWhile_eq_nil_iff.mpr hbehind
  rw [parse?, parseWithin?]
  simp only [value?_congr hspace, value?_lists hinner hrange hfuel, depthLimit]
  simp [hend]

end Json

end TypedSheets
