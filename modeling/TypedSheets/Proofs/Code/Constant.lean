import TypedSheets.Proofs.Code.Reading

/-!
# Numbers and names as expressions

The length of an array is mostly a number or the name of a constant. Either is one token, and by
itself an expression.

## Main results

* `Lexer.lexed_digits` — a number in front of a closing bracket
* `Rules.run_nextExpr_literal`, `Rules.run_nextExpr_ident` — a literal and a name by themselves
-/

namespace TypedSheets

namespace Code.Lexer

/-- What a digit is not, and what follows a number is no part of it. -/
structure StartsOnlyNumber (c : Char) : Prop where
  notGap : isGap c = false
  notSide : side? c = none
  notStart : isIdentStart c = false
  notQuote : c ∉ ['"', '\'', '(', '/', '_', 'r', 'b', 'c', 'x', 'o']

theorem startsOnlyNumber_of_isDigit {c : Char} (h : c.isDigit = true) : StartsOnlyNumber c := by
  have hall : ∀ n : Fin 0x80, (Char.ofNat n).isDigit = true →
      isGap (Char.ofNat n) = false ∧ (side? (Char.ofNat n)).isNone = true ∧
        isIdentStart (Char.ofNat n) = false ∧
          Char.ofNat n ∉ ['"', '\'', '(', '/', '_', 'r', 'b', 'c', 'x', 'o'] := by
    decide
  have hlast := (Char.isDigit_iff_toNat.mp h).2
  have hc := hall ⟨c.toNat, lt_of_le_of_lt hlast (by decide)⟩
  rw [Char.ofNat_toNat] at hc
  obtain ⟨hgap, hside, hstart, hquote⟩ := hc h
  exact ⟨hgap, Option.isNone_iff_eq_none.mp hside, hstart, hquote⟩

section Digits

variable {c : Char} {u rest : List Char}

/-- Digits end in front of a bracket. -/
theorem takeWhile_digits (h : ∀ d ∈ c :: u, d.isDigit = true) {p : Char → Bool}
    (hp : ∀ d, d.isDigit = true → p d = true) (hend : p ']' = false) (rest : List Char) :
    (c :: u ++ ']' :: rest).takeWhile p = c :: u ∧
      (c :: u ++ ']' :: rest).dropWhile p = ']' :: rest := by
  have hall : ∀ d ∈ c :: u, p d = true := fun d hd => hp d (h d hd)
  rw [List.takeWhile_append_of_pos hall, List.dropWhile_append_of_pos hall,
    List.takeWhile_cons_of_neg (by simp [hend]), List.dropWhile_cons_of_neg (by simp [hend]),
    List.append_nil]
  exact ⟨rfl, rfl⟩

theorem floatDigits?_digits (h : ∀ d ∈ c :: u, d.isDigit = true) :
    floatDigits? (c :: u ++ ']' :: rest) = none := by
  have hdigit (d : Char) (hd : d.isDigit = true) : isDigitOrGap d = true := by
    rw [isDigitOrGap, hd, Bool.true_or]
  rw [floatDigits?, (takeWhile_digits h hdigit rfl rest).2]
  simp [h c List.mem_cons_self]

theorem basedDigits?_digits (h : ∀ d ∈ c :: u, d.isDigit = true) :
    basedDigits? 10 (c :: u ++ ']' :: rest) = some (']' :: rest) := by
  unfold basedDigits?
  extract_lets isDigit digits
  have hdigit (d : Char) (hd : d.isDigit = true) : isDigit d = true := by
    have hlt : Number.digitValue d < 10 := by
      have hlast : d.toNat ≤ 57 := (Char.isDigit_iff_toNat.mp hd).2
      change d.toNat - 48 < 10
      omega
    simp only [isDigit, Number.hexValue?, hd, if_true, hlt, decide_true, Bool.or_true]
  obtain ⟨htake, hdrop⟩ := takeWhile_digits h hdigit rfl rest
  have hgap : c ≠ '_' := by
    rintro rfl
    cases h '_' List.mem_cons_self
  rw [hdrop, show digits = c :: u from htake]
  simp [hgap]

/-- Behind the first digit stands a digit or the bracket, and no sign of another base. -/
theorem integerDigits?_digits (h : ∀ d ∈ c :: u, d.isDigit = true) :
    integerDigits? (c :: u ++ ']' :: rest) = some (']' :: rest) := by
  -- the digits are not those of another base, which a letter behind the zero would announce
  have hsecond {d : Char} {more : List Char} (hd : u ++ ']' :: rest = d :: more) :
      d ∉ ['x', 'o', 'b'] := by
    cases u with
    | nil =>
      obtain rfl := (List.cons.inj hd).1
      decide
    | cons e u =>
      obtain rfl : e = d := (List.cons.inj hd).1
      have hother : ['x', 'o', 'b'].all (!Char.isDigit ·) = true := by decide
      intro hmem
      have hnot := List.all_eq_true.mp hother e hmem
      rw [h e (by simp)] at hnot
      cases hnot
  rw [integerDigits?.eq_def]
  split
  · next heq => exact absurd (by decide) (hsecond (List.cons.inj heq).2)
  · next heq => exact absurd (by decide) (hsecond (List.cons.inj heq).2)
  · next heq => exact absurd (by decide) (hsecond (List.cons.inj heq).2)
  · next heq => cases (List.cons.inj heq).1 ▸ h c List.mem_cons_self
  · exact basedDigits?_digits h

theorem number?_digits (h : ∀ d ∈ c :: u, d.isDigit = true) :
    number? (c :: u ++ ']' :: rest) = some (']' :: rest) := by
  rw [number?, floatDigits?_digits h, integerDigits?_digits h]
  rfl

theorem before_append (s tail : List Char) : before (s ++ tail) tail = s := by
  rw [before, List.length_append, Nat.add_sub_cancel, List.take_left]

/-- A number in front of a closing bracket is one literal. -/
theorem lexed_digits (h : ∀ d ∈ c :: u, d.isDigit = true) :
    Lexed (c :: u ++ ']' :: rest) [.token (.literal (String.ofList (c :: u)))] (']' :: rest) := by
  refine .single ?_ (by simp only [List.length_append, List.length_cons]; omega)
  obtain ⟨hgap, hside, -, hquote⟩ := startsOnlyNumber_of_isDigit (h c List.mem_cons_self)
  have hne {d : Char} (hd : d ∈ ['"', '\'', '(', '/', '_', 'r', 'b', 'c', 'x', 'o']) : c ≠ d := by
    rintro rfl
    exact hquote hd
  have hunreadable : startsWith unreadable (c :: u ++ ']' :: rest) = false := by
    rw [startsWith, Bool.eq_false_iff]
    intro hstart
    exact hne (by decide)
      (List.cons_prefix_cons.mp (List.isPrefixOf_iff_prefix.mp hstart)).1.symm
  have hcomment : comment? (c :: u ++ ']' :: rest) = none := by
    rw [comment?.eq_def]
    split
    · next heq => exact absurd (List.cons.inj heq).1 (hne (by decide))
    · next heq => exact absurd (List.cons.inj heq).1 (hne (by decide))
    · rfl
  have hquoted : quotedEnd? (c :: u ++ ']' :: rest) = none := by
    rw [quotedEnd?.eq_def]
    -- every text starts with a character that is no digit
    split
    all_goals first
      | rfl
      | rename_i heq; exact absurd (List.cons.inj heq).1 (hne (by decide))
  have hliteral : literal? (c :: u ++ ']' :: rest) =
      some (.literal (String.ofList (c :: u)), ']' :: rest) := by
    rw [literal?, literalEnd?, hquoted]
    dsimp only
    rw [number?_digits h, Option.map_some, before_append]
  rw [List.cons_append] at hunreadable hcomment hliteral ⊢
  rw [lexeme?.eq_def]
  simp only [hgap, hunreadable, hside, hcomment, token?, hliteral]
  rfl

end Digits

end Code.Lexer

namespace Code

open Reader

theorem Rules.run_nextExpr_literal (g : Rules) (s : String) :
    (g.nextExpr true).run [.literal s] = some (.plain [.literal s], []) := by
  rfl

namespace Rules

variable (g : Rules) {n : String} {raw : Bool}

theorem isSegment_of_isModuleName {t : Token} (h : isModuleName t = true) : isSegment t = true := by
  rw [isModuleName, Bool.or_eq_true] at h
  rw [isSegment]
  rcases h with h | h
  · rw [h]
    rfl
  · simp only [startsAnyWord, List.any_cons, List.any_nil, Bool.or_false, Bool.or_eq_true] at h
    simp only [isPlaceWord, startsAnyWord, List.any_cons, List.any_nil, Bool.or_false,
      Bool.or_eq_true]
    tauto

theorem run_pathExpr_ident (h : isModuleName (.ident n raw) = true) :
    (g.pathExpr true).run [.ident n raw] = some (.plain [.ident n raw], []) := by
  have hsegment : (g.segment true).run [.ident n raw] = some ((.ident n raw, .absent), []) :=
    run_segment_absent (isSegment_of_isModuleName h) rfl
  have hpath : (g.path true).run [.ident n raw] =
      some (⟨false, false, [(Token.ident n raw).text], true, [.ident n raw], .absent⟩, []) := by
    have hcolons : (optionalOp "::").run [.ident n raw] = some ([], [.ident n raw]) := rfl
    rw [path, run_bind_of_run hcolons, run_bind_of_run hsegment]
    rfl
  have hany : (g.anyPath true).run [.ident n raw] = (g.path true).run [.ident n raw] := rfl
  rw [pathExpr, run_bind_of_run (hany.trans hpath)]
  rfl

theorem run_atom_ident (h : isModuleName (.ident n raw) = true) :
    (g.atom true).run [.ident n raw] = some (.plain [.ident n raw], []) := by
  -- a name that is no keyword starts none of the forms that are tried before paths
  have hliteral : startsLiteral [.ident n raw] = false :=
    startsLiteral_eq_false (isSegment_of_isModuleName h) []
  have hasync : startsAsyncBlock [.ident n raw] = false := by
    rw [startsAsyncBlock, startsWord_eq_false h (by decide), Bool.false_and]
  have hclosure : startsClosure [.ident n raw] = false := by
    simp [startsClosure, startsQuantifier, startsOp_ident_eq_false,
      startsWord_eq_false h (w := "move") (by decide),
      startsWord_eq_false h (w := "for") (by decide),
      startsWord_eq_false h (w := "const") (by decide),
      startsWord_eq_false h (w := "static") (by decide),
      startsWord_eq_false h (w := "async") (by decide)]
  have hblock : startsBlockExpr [.ident n raw] = false := by
    have hwords : startsAnyWord ["if", "while", "loop", "match", "unsafe"] [.ident n raw] = false :=
      startsAnyWord_eq_false h (by decide) []
    have hbraced : startsAnyWord ["try", "const"] [.ident n raw] = false :=
      startsAnyWord_eq_false h (by decide) []
    rw [startsBlockExpr, hwords, startsWord_eq_false h (w := "for") (by decide), hbraced]
    rfl
  have hpath : startsPathExpr [.ident n raw] = true := by
    simp [startsPathExpr, startsPath, startsPathName, h]
  have hbuiltin : (startsWord "builtin" [.ident n raw] &&
      startsOp "#" ([.ident n raw].drop 1)) = false := by
    rw [Bool.and_eq_false_iff]
    exact .inr rfl
  rw [atom, run_sees_bind, hliteral, if_neg Bool.false_ne_true, run_sees_bind, hasync,
    if_neg Bool.false_ne_true, run_sees_bind, hclosure, if_neg Bool.false_ne_true, run_sees_bind,
    hblock, if_neg Bool.false_ne_true, run_sees_bind, hbuiltin, if_neg Bool.false_ne_true,
    run_sees_bind, hpath, if_pos rfl]
  exact run_pathExpr_ident g h

/-- A name by itself is an expression. -/
theorem run_nextExpr_ident (h : isModuleName (.ident n raw) = true) :
    (g.nextExpr true).run [.ident n raw] = some (.plain [.ident n raw], []) := by
  have hatom := run_atom_ident g h
  have houter : g.outer.run [.ident n raw] = some ([], [.ident n raw]) := rfl
  have hsigns : signs.find? (startsOp · [.ident n raw]) = none := rfl
  have hoperand : (g.nextOperand true).run [.ident n raw] = some (.plain [.ident n raw], []) := by
    rw [nextOperand, run_get_bind, run_bind_of_run houter, run_seesOp_bind,
      if_neg (by simp [startsOp_ident_eq_false]), run_get_bind, hsigns]
    dsimp only
    rw [run_bind_of_run hatom]
    rfl
  rw [nextExpr, run_bind_of_run hoperand]
  rfl

end Rules

end Code

end TypedSheets
