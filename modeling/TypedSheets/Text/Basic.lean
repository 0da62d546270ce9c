/-!
# Texts

What is asked of the characters of texts and needs no table of them. White space is the property
White_Space: the ASCII blanks and line ends, the next-line control and the typographic spaces. A
zero width space is not white space.

* `Text.inRanges` — membership in sorted ranges of code points, which stops at the first range that
  lies above
* `Text.dropMark` — a text without the mark of its byte order, with which a file may start
* `Text.isBlankChar` — white space
* `Text.trimChars`, `Text.trim` — a text without the white space at its ends
* `Text.isBlank` — nothing but white space
* `Text.splitBy` — the parts of a text between separators: one more than there are separators
-/

namespace TypedSheets.Text

/-! ### Sorted ranges of code points -/

/-- Whether `n` lies in one of the sorted closed ranges. -/
def inRanges : List (Nat × Nat) → Nat → Bool
  | [], _ => false
  | (lo, hi) :: rest, n => if n < lo then false else if n ≤ hi then true else inRanges rest n

/-! ### Byte order marks -/

/-- A text without the byte order mark that it may start with. -/
def dropMark : List Char → List Char
  | c :: rest => if c.toNat == 0xFEFF then rest else c :: rest
  | [] => []

theorem dropMark_cons {c : Char} (h : c.toNat ≠ 0xFEFF) (rest : List Char) :
    dropMark (c :: rest) = c :: rest := by
  simp [dropMark, h]

/-! ### White space -/

/-- The property White_Space. -/
def isBlankChar (c : Char) : Bool :=
  let n := c.toNat
  (9 ≤ n && n ≤ 13) || n == 0x20 || n == 0x85 || n == 0xA0 || n == 0x1680 ||
    (0x2000 ≤ n && n ≤ 0x200A) || n == 0x2028 || n == 0x2029 || n == 0x202F || n == 0x205F ||
    n == 0x3000

/-- The characters without the white space in front. -/
def trimStartChars (s : List Char) : List Char := s.dropWhile isBlankChar

/-- The characters without the white space behind. -/
def trimEndChars (s : List Char) : List Char := (s.reverse.dropWhile isBlankChar).reverse

/-- The characters without the white space at both ends. -/
def trimChars (s : List Char) : List Char := trimEndChars (trimStartChars s)

/-- The text without the white space at both ends. -/
def trim (s : String) : String := String.ofList (trimChars s.toList)

/-- Whether a text holds nothing but white space. -/
def isBlank (s : String) : Bool := s.toList.all isBlankChar

@[simp] theorem toList_trim (s : String) : (trim s).toList = trimChars s.toList := by
  simp [trim]

/-! ### Splitting -/

/-- The parts of a text between characters of a class. -/
def splitBy (isSep : Char → Bool) : List Char → List (List Char)
  | [] => [[]]
  | c :: rest =>
    if isSep c then [] :: splitBy isSep rest
    else
      match splitBy isSep rest with
      | part :: parts => (c :: part) :: parts
      | [] => [[c]]

theorem length_splitBy (isSep : Char → Bool) (s : List Char) :
    (splitBy isSep s).length = s.countP isSep + 1 := by
  induction s with
  | nil => rfl
  | cons c rest ih =>
    simp only [splitBy]
    split
    · simp_all
    · next h =>
      rw [List.countP_cons_of_neg (by simpa using h)]
      split
      · next part parts hparts => simpa [hparts] using ih
      · next hnil => simp [hnil] at ih

theorem not_mem_of_mem_splitBy {isSep : Char → Bool} {s part : List Char}
    (h : part ∈ splitBy isSep s) : ∀ c ∈ part, isSep c = false := by
  induction s generalizing part with
  | nil => simp_all [splitBy]
  | cons x rest ih =>
    rw [splitBy] at h
    split at h
    · rcases List.mem_cons.mp h with rfl | h
      · simp
      · exact ih h
    · next hx =>
      split at h
      · next first others hparts =>
        rcases List.mem_cons.mp h with rfl | h
        · intro c hc
          rcases List.mem_cons.mp hc with rfl | hc
          · simpa using hx
          · exact ih (hparts ▸ List.mem_cons_self) c hc
        · exact ih (hparts ▸ List.mem_cons_of_mem _ h)
      · simp_all

end TypedSheets.Text
