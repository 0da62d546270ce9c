import Mathlib.Data.List.TakeWhile
import TypedSheets.Code.Lexer

/-!
# Texts made of tokens

The written form of a type is put together of names, marks, brackets and spaces. Each of them is
read by itself, as long as what follows it does not go on with it, and so the lexemes of such a text
are those of its parts.

## Main definitions

* `Lexer.Lexed` — lexemes of a stretch of a text
* `lexemesOf` — the lexemes of tokens
* `Token.Valid` — every name in a token is an identifier

## Main results

* `nest?_lexemesOf` — the lexemes of tokens are nested to the tokens
* `Lexer.lexed_ident`, `Lexer.lexed_mark`, `Lexer.lexed_group` — names, marks and groups
* `valid_of_tokenize?` — the tokens of a text are valid
-/

namespace TypedSheets.Code.Lexer

/-! ### Stretches of a text -/

/-- A stretch of a text gives lexemes, whatever follows that part of the text. -/
inductive Lexed : List Char → List Lexeme → List Char → Prop
  | refl (s : List Char) : Lexed s [] s
  | step {s rest behind : List Char} {ls more : List Lexeme} (h : lexeme? s = some (ls, rest))
      (hless : rest.length < s.length) (hrest : Lexed rest more behind) :
      Lexed s (ls ++ more) behind

theorem Lexed.single {s rest : List Char} {l : Lexeme} (h : lexeme? s = some ([l], rest))
    (hless : rest.length < s.length) : Lexed s [l] rest :=
  .step h hless (.refl rest)

theorem Lexed.trans {s middle behind : List Char} {ls more : List Lexeme} (h : Lexed s ls middle)
    (hmore : Lexed middle more behind) : Lexed s (ls ++ more) behind := by
  induction h with
  | refl s => exact hmore
  | step h hless _ ih =>
    rw [List.append_assoc]
    exact .step h hless (ih hmore)

theorem Lexed.scanWithin? {s : List Char} {ls : List Lexeme} (h : Lexed s ls []) {fuel : Nat}
    (hfuel : s.length ≤ fuel) : Lexer.scanWithin? fuel s = some ls := by
  generalize hend : ([] : List Char) = behind at h
  -- on the stretches: each of them leaves less text than it started with
  induction h generalizing fuel with
  | refl s =>
    obtain rfl := hend
    cases fuel <;> rfl
  | @step s rest _ ls more h hless _ ih =>
    cases s with
    | nil => cases hless
    | cons c s =>
      cases fuel with
      | zero => cases hfuel
      | succ fuel =>
        rw [Lexer.scanWithin?, h]
        · dsimp only
          rw [ih (by omega) hend]
          rfl
        · simp

theorem Lexed.scan? {s : List Char} {ls : List Lexeme} (h : Lexed s ls []) :
    Lexer.scan? s = some ls :=
  h.scanWithin? le_rfl

end TypedSheets.Code.Lexer

namespace TypedSheets.Code

open Lexer (Lexeme Lexed lexeme?)

/-! ### Lexemes of tokens -/

mutual

/-- The lexemes of a token: a group has one at either end. -/
def Token.lexemes : Token → List Lexeme
  | .group d ts => .opening d :: lexemesOf ts ++ [.closing d]
  | .ident n raw => [.token (.ident n raw)]
  | .lifetime n => [.token (.lifetime n)]
  | .punct c joint => [.token (.punct c joint)]
  | .literal s => [.token (.literal s)]

/-- The lexemes of tokens. -/
def lexemesOf : List Token → List Lexeme
  | [] => []
  | t :: rest => t.lexemes ++ lexemesOf rest

end

theorem lexemesOf_append (ts more : List Token) :
    lexemesOf (ts ++ more) = lexemesOf ts ++ lexemesOf more := by
  induction ts with
  | nil => rfl
  | cons t ts ih => rw [List.cons_append, lexemesOf, ih, lexemesOf, List.append_assoc]

mutual

theorem nestFrom_lexemes (t : Token) (done : List Token) (outer : List (Delimiter × List Token))
    (ls : List Lexeme) :
    Lexer.nestFrom done outer (t.lexemes ++ ls) = Lexer.nestFrom (t :: done) outer ls := by
  cases t with
  | group d ts =>
    rw [Token.lexemes, List.cons_append, List.cons_append, List.append_assoc, Lexer.nestFrom,
      nestFrom_lexemesOf ts, List.append_nil, List.singleton_append, Lexer.nestFrom, if_pos rfl,
      List.reverse_reverse]
  | ident _ _ | lifetime _ | punct _ _ | literal _ =>
    rw [Token.lexemes, List.singleton_append, Lexer.nestFrom]

theorem nestFrom_lexemesOf (ts : List Token) (done : List Token)
    (outer : List (Delimiter × List Token)) (ls : List Lexeme) :
    Lexer.nestFrom done outer (lexemesOf ts ++ ls) =
      Lexer.nestFrom (ts.reverse ++ done) outer ls := by
  cases ts with
  | nil => rfl
  | cons t ts =>
    rw [lexemesOf, List.append_assoc, nestFrom_lexemes t, nestFrom_lexemesOf ts, List.reverse_cons,
      List.append_assoc, List.singleton_append]

end

/-- The lexemes of tokens are nested to the tokens. -/
theorem nest?_lexemesOf (ts : List Token) : Lexer.nest? (lexemesOf ts) = some ts := by
  have h := nestFrom_lexemesOf ts [] [] []
  rwa [List.append_nil, List.append_nil, Lexer.nestFrom, List.reverse_reverse] at h

/-- What a name is, raw or not: an identifier, and a raw one no word that cannot be a name. -/
structure Token.ValidName (n : String) (raw : Bool) : Prop where
  isIdentifier : isIdentifier n = true
  isRaw : raw = true → n ∉ neverNames

/-- All names in a token are valid. -/
inductive Token.Valid : Token → Prop
  | ident {n : String} {raw : Bool} (h : ValidName n raw) : Valid (.ident n raw)
  | lifetime (n : String) : Valid (.lifetime n)
  | punct (c : Char) (joint : Bool) : Valid (.punct c joint)
  | literal (s : String) : Valid (.literal s)
  | group (d : Delimiter) {ts : List Token} (h : ∀ t ∈ ts, Valid t) : Valid (.group d ts)

/-- All names in tokens are valid. -/
def Tokens.Valid (ts : Tokens) : Prop := ∀ t ∈ ts, t.Valid

namespace Lexer

/-! ### Characters of identifiers -/

theorem not_isIdentStart_of_mem {c : Char}
    (h : c ∈ operatorMarks ++ "()[]\x7b\x7d\"0123456789".toList) : isIdentStart c = false := by
  have hall :
      (operatorMarks ++ "()[]\x7b\x7d\"0123456789".toList).all (!isIdentStart ·) = true := by
    decide
  rw [← Bool.not_eq_true']
  exact List.all_eq_true.mp hall c h

/-- White space and direction marks start no identifier. -/
theorem isGap_of_isIdentStart {c : Char} (h : isIdentStart c = true) : isGap c = false := by
  have hgaps : ∀ n ∈ [9, 10, 11, 12, 13, 0x20, 0x85, 0xA0, 0x1680, 0x2000, 0x2001, 0x2002, 0x2003,
      0x2004, 0x2005, 0x2006, 0x2007, 0x2008, 0x2009, 0x200A, 0x200E, 0x200F, 0x2028, 0x2029,
      0x202F, 0x205F, 0x3000], isIdentStart (Char.ofNat n) = false := by
    decide +kernel
  by_contra hgap
  rw [Bool.not_eq_false] at hgap
  simp only [isGap, Text.isBlankChar, Bool.or_eq_true, Bool.and_eq_true, decide_eq_true_eq,
    beq_iff_eq] at hgap
  have hfalse := hgaps c.toNat (by simp only [List.mem_cons, List.not_mem_nil]; omega)
  rw [Char.ofNat_toNat, h] at hfalse
  cases hfalse

theorem isIdentStart_of_isDigit {c : Char} (h : c.isDigit = true) : isIdentStart c = false := by
  have hall : ∀ n : Fin 0x80, (Char.ofNat n).isDigit = true →
      isIdentStart (Char.ofNat n) = false := by
    decide
  have hlast := (Char.isDigit_iff_toNat.mp h).2
  have hc := hall ⟨c.toNat, lt_of_le_of_lt hlast (by decide)⟩
  rw [Char.ofNat_toNat] at hc
  exact hc h

/-- Where an identifier starts, nothing else does. -/
structure StartsOnlyName (c : Char) : Prop where
  notGap : isGap c = false
  notSide : side? c = none
  notMark : c ∉ operatorMarks
  notDigit : c.isDigit = false
  notQuote : c ≠ '"'
  notParen : c ≠ '('

theorem startsOnlyName_of_isIdentStart {c : Char} (h : isIdentStart c = true) :
    StartsOnlyName c := by
  have hnot : ∀ d ∈ operatorMarks ++ "()[]\x7b\x7d\"0123456789".toList, c ≠ d := by
    rintro d hd rfl
    rw [not_isIdentStart_of_mem hd] at h
    cases h
  -- braces are told by their code points
  have hbracket : ∀ n ∈ [0x7B, 0x7D], c.toNat ≠ n := by
    rintro n hn rfl
    have hfalse : isIdentStart (Char.ofNat c.toNat) = false := by
      rcases List.mem_cons.mp hn with heq | hn
      · rw [heq]; decide
      · rw [List.mem_singleton.mp hn]; decide
    rw [Char.ofNat_toNat, h] at hfalse
    cases hfalse
  refine ⟨isGap_of_isIdentStart h, ?_, fun hc => hnot c (List.mem_append_left _ hc) rfl, ?_,
    hnot '"' (by decide), hnot '(' (by decide)⟩
  · simp [side?, hnot '(' (by decide), hnot ')' (by decide), hnot '[' (by decide),
      hnot ']' (by decide), hbracket]
  · by_contra hdigit
    rw [Bool.not_eq_false] at hdigit
    rw [isIdentStart_of_isDigit hdigit] at h
    cases h

/-- What may follow a name: no character that goes on with it or makes it the start of a literal. -/
def EndsName (rest : List Char) : Prop :=
  ∀ c ∈ rest.head?, isIdentContinue c = false ∧ c ≠ '"' ∧ c ≠ '#' ∧ c ≠ '\''

/-! ### No literals -/

theorem number?_of_not_isDigit {c : Char} (h : c.isDigit = false) (rest : List Char) :
    number? (c :: rest) = none := by
  have hfloat : floatDigits? (c :: rest) = none := by
    rw [floatDigits?, List.head?_cons, Option.any_some, h, Bool.not_false, if_pos rfl]
  have hbased : c ≠ '_' → basedDigits? 10 (c :: rest) = none := fun hgap => by
    unfold basedDigits?
    extract_lets isDigit digits
    have hfirst : isDigit c = false := by
      simp only [isDigit, beq_eq_false_iff_ne.mpr hgap, Bool.false_or, Number.hexValue?, h,
        Bool.false_eq_true, if_false]
      -- a hexadecimal digit that is none of ten counts at least ten
      grind
    have hnone : digits = [] := List.takeWhile_cons_of_neg (Bool.eq_false_iff.mp hfirst)
    rw [List.dropWhile_cons_of_neg (Bool.eq_false_iff.mp hfirst), hnone]
    simp
  have hinteger : integerDigits? (c :: rest) = none := by
    rw [integerDigits?.eq_def]
    split
    · next heq => rw [(List.cons.inj heq).1] at h; cases h
    · next heq => rw [(List.cons.inj heq).1] at h; cases h
    · next heq => rw [(List.cons.inj heq).1] at h; cases h
    · rfl
    · next hgap => exact hbased fun heq => hgap rest (by rw [heq])
  rw [number?, hfloat, hinteger]
  rfl

/-- A raw text starts with a quote behind its hashes. -/
theorem rawString?_eq_none {kind : TextKind} {s : List Char}
    (h : (s.dropWhile (· == '#')).head? ≠ some '"') : rawString? kind s = none := by
  rw [rawString?]
  split
  · next heq => exact absurd (by rw [heq]; rfl) h
  · rfl

/-- What stands where a text could start after a letter: neither a quote nor a hash. -/
def Quiet (s : List Char) : Prop := ∀ c ∈ s.head?, c ≠ '"' ∧ c ≠ '#' ∧ c ≠ '\''

theorem Quiet.rawString? {kind : TextKind} {s : List Char} (h : Quiet s) :
    Lexer.rawString? kind s = none := by
  refine rawString?_eq_none fun hhead => ?_
  cases s with
  | nil => cases hhead
  | cons c s =>
    obtain ⟨hquote, hhash, -⟩ := h c rfl
    rw [List.dropWhile_cons_of_neg (by simpa using hhash)] at hhead
    exact hquote (Option.some.inj hhead)

/-- No text literal starts with a letter that nothing like a quote follows. -/
theorem quotedEnd?_eq_none {c : Char} {s : List Char} (hquote : c ≠ '"') (hsingle : c ≠ '\'')
    (hs : Quiet s) (htail : ∀ t, s = 'r' :: t → Quiet t) : quotedEnd? (c :: s) = none := by
  rw [quotedEnd?.eq_def]
  split
  · next heq => exact absurd (List.cons.inj heq).1 hquote
  · next heq => rw [← (List.cons.inj heq).2, hs.rawString?]
  · next heq => exact absurd rfl (hs '"' (by rw [(List.cons.inj heq).2]; rfl)).1
  · next heq => exact (htail _ (List.cons.inj heq).2).rawString?
  · next heq => exact absurd rfl (hs '\'' (by rw [(List.cons.inj heq).2]; rfl)).2.2
  · next heq => exact absurd rfl (hs '"' (by rw [(List.cons.inj heq).2]; rfl)).1
  · next heq => exact (htail _ (List.cons.inj heq).2).rawString?
  · next heq => exact absurd (List.cons.inj heq).1 hsingle
  · rfl

/-! ### Names -/

theorem exists_chars_of_isIdentifier {n : String} (h : isIdentifier n = true) :
    ∃ c u, n.toList = c :: u ∧ isIdentStart c = true ∧ ∀ d ∈ u, isIdentContinue d = true := by
  rw [isIdentifier] at h
  split at h
  · cases h
  · next c u heq =>
    rw [Bool.and_eq_true, List.all_eq_true] at h
    exact ⟨c, u, heq, h⟩

section Names

variable {c : Char} {u rest : List Char}

theorem isIdentContinue_of_isIdentStart (h : isIdentStart c = true) : isIdentContinue c = true := by
  rw [isIdentContinue, h, Bool.true_or, Bool.true_or]

theorem quiet_append (hu : ∀ d ∈ u, isIdentContinue d = true) (hrest : EndsName rest) :
    Quiet (u ++ rest) := by
  intro d hd
  cases u with
  | nil => exact (hrest d hd).2
  | cons e u =>
    obtain rfl : e = d := Option.some.inj hd
    have he := hu e List.mem_cons_self
    refine ⟨?_, ?_, ?_⟩ <;>
    · rintro rfl
      cases he

theorem EndsName.takeWhile (hrest : EndsName rest) (hu : ∀ d ∈ u, isIdentContinue d = true) :
    (u ++ rest).takeWhile isIdentContinue = u ∧ (u ++ rest).dropWhile isIdentContinue = rest := by
  rw [List.takeWhile_append_of_pos hu, List.dropWhile_append_of_pos hu]
  cases rest with
  | nil => exact ⟨List.append_nil u, rfl⟩
  | cons d rest =>
    have hd : ¬ isIdentContinue d = true := by rw [(hrest d rfl).1]; exact Bool.false_ne_true
    rw [List.takeWhile_cons_of_neg hd, List.dropWhile_cons_of_neg hd, List.append_nil]
    exact ⟨rfl, rfl⟩

/-- No literal starts with a name. -/
theorem literal?_name (hc : isIdentStart c = true) (hu : ∀ d ∈ u, isIdentContinue d = true)
    (hrest : EndsName rest) : literal? (c :: u ++ rest) = none := by
  have hstart := startsOnlyName_of_isIdentStart hc
  -- a prefix of a quoted literal needs a quote behind it, and what is behind the name is none
  have hquoted : quotedEnd? (c :: u ++ rest) = none := by
    rw [List.cons_append]
    refine quotedEnd?_eq_none hstart.notQuote ?_ (quiet_append hu hrest) fun t ht => ?_
    · rintro rfl
      exact hstart.notMark (by decide)
    · cases u with
      | nil =>
        have hr := (hrest 'r' (by rw [← List.nil_append rest, ht]; rfl)).1
        exact absurd hr (by decide)
      | cons d u =>
        rw [← (List.cons.inj ht).2]
        exact quiet_append (fun e he => hu e (List.mem_cons_of_mem _ he)) hrest
  rw [literal?, literalEnd?, hquoted]
  dsimp only
  rw [List.cons_append, number?_of_not_isDigit hstart.notDigit]
  rfl

/-- Where a literal starts, a quote or a hash stands behind letters. -/
theorem literalStarts_quote : ∀ p ∈ literalStarts,
    (p.toList.dropWhile isIdentContinue).head?.any (fun q => q == '"' || q == '#' || q == '\'') =
      true := by
  decide

theorem word?_name (hc : isIdentStart c = true) (hu : ∀ d ∈ u, isIdentContinue d = true)
    (hrest : EndsName rest) :
    word? (c :: u ++ rest) = some (.ident (String.ofList (c :: u)) false, rest) := by
  have hall : ∀ d ∈ c :: u, isIdentContinue d = true :=
    List.forall_mem_cons.mpr ⟨isIdentContinue_of_isIdentStart hc, hu⟩
  obtain ⟨htake, hdrop⟩ := hrest.takeWhile hall
  have hliteral : literalStarts.any (fun p => startsWith p (c :: u ++ rest)) = false := by
    rw [List.any_eq_false]
    intro p hp hstart
    obtain ⟨z, hz⟩ := List.isPrefixOf_iff_prefix.mp hstart
    have hquote := literalStarts_quote p hp
    -- the quote or hash would be the first character behind the name
    rw [← hz, List.dropWhile_append] at hdrop
    cases hbehind : p.toList.dropWhile isIdentContinue with
    | nil => rw [hbehind] at hquote; cases hquote
    | cons q more =>
      rw [hbehind, List.isEmpty_cons, if_neg Bool.false_ne_true] at hdrop
      rw [hbehind, List.head?_cons, Option.any_some] at hquote
      have hq := (hrest q (by rw [← hdrop]; rfl)).2
      simp only [Bool.or_eq_true, beq_iff_eq] at hquote
      rcases hquote with (h | h) | h
      · exact hq.1 h
      · exact hq.2.1 h
      · exact hq.2.2 h
  rw [word?, hliteral, if_neg Bool.false_ne_true, identifier?.eq_def]
  dsimp only
  split
  · next s t heq =>
    rw [List.cons_append] at heq
    have hquiet := quiet_append hu hrest '#' (by rw [(List.cons.inj heq).2]; rfl)
    exact absurd rfl hquiet.2.1
  · rw [htake, hdrop]
    simp [hc]

/-- No comment and no mark stands where a name starts. -/
theorem lexeme?_of_word? {t : Token} (hc : isIdentStart c = true)
    (hliteral : literal? (c :: u) = none) (hword : word? (c :: u) = some (t, rest)) :
    lexeme? (c :: u) = some ([.token t], rest) := by
  have hstart := startsOnlyName_of_isIdentStart hc
  -- the start of a name is no start of anything that is tried before words
  have hunreadable : startsWith unreadable (c :: u) = false := by
    rw [startsWith, Bool.eq_false_iff]
    intro h
    exact hstart.notParen (List.cons_prefix_cons.mp (List.isPrefixOf_iff_prefix.mp h)).1.symm
  have hslash : c ≠ '/' := by
    rintro rfl
    exact hstart.notMark (by decide)
  have hcomment : comment? (c :: u) = none := by
    rw [comment?.eq_def]
    split
    · next heq => exact absurd (List.cons.inj heq).1 hslash
    · next heq => exact absurd (List.cons.inj heq).1 hslash
    · rfl
  have hpunct : punct? (c :: u) = none := by
    have hmark : startsMark (c :: u) = false := by
      rw [startsMark, List.head?_cons, Option.any_some, List.contains_eq_mem,
        decide_eq_false hstart.notMark, Bool.false_and]
    rw [punct?.eq_def]
    split
    · next heq =>
      refine absurd ?_ hstart.notMark
      rw [(List.cons.inj heq).1]
      decide
    · next heq =>
      obtain ⟨rfl, rfl⟩ := List.cons.inj heq
      rw [hmark, if_neg Bool.false_ne_true]
    · rfl
  rw [lexeme?.eq_def]
  simp only [hstart.notGap, hunreadable, hstart.notSide, hcomment, token?, hliteral, hpunct, hword]
  rfl

/-- A name that is not raw. -/
theorem lexed_plainName (hc : isIdentStart c = true) (hu : ∀ d ∈ u, isIdentContinue d = true)
    (hrest : EndsName rest) :
    Lexed (c :: u ++ rest) [.token (.ident (String.ofList (c :: u)) false)] rest :=
  .single (lexeme?_of_word? hc (literal?_name hc hu hrest) (word?_name hc hu hrest))
    (by simp only [List.length_append, List.length_cons]; omega)

/-- A raw name. Behind the hash a name stands and no quote, so that it starts no text. -/
theorem lexed_rawName (hc : isIdentStart c = true) (hu : ∀ d ∈ u, isIdentContinue d = true)
    (hname : String.ofList (c :: u) ∉ neverNames) (hrest : EndsName rest) :
    Lexed ('r' :: '#' :: (c :: u ++ rest)) [.token (.ident (String.ofList (c :: u)) true)]
      rest := by
  have hstart := startsOnlyName_of_isIdentStart hc
  have hhash : c ≠ '#' := by
    rintro rfl
    exact hstart.notMark (by decide)
  refine .single (lexeme?_of_word? (by decide) ?_ ?_)
    (by simp only [List.length_append, List.length_cons]; omega)
  -- a raw text has a quote behind its number signs, and a name starts with no quote
  · have hraw : rawString? .plain ('#' :: (c :: u ++ rest)) = none := by
      refine rawString?_eq_none ?_
      rw [List.dropWhile_cons_of_pos rfl, List.cons_append,
        List.dropWhile_cons_of_neg (by simpa using hhash), List.head?_cons]
      exact fun heq => hstart.notQuote (Option.some.inj heq)
    rw [literal?, literalEnd?, quotedEnd?, hraw]
    dsimp only
    rw [number?_of_not_isDigit (by decide)]
    rfl
  · have hliteral : literalStarts.any (fun p => startsWith p ('r' :: '#' :: (c :: u ++ rest))) =
        false := by
      simp [literalStarts, startsWith, List.isPrefixOf, hhash.symm, hstart.notQuote.symm]
    obtain ⟨htake, hdrop⟩ := hrest.takeWhile (u := c :: u)
      (List.forall_mem_cons.mpr ⟨isIdentContinue_of_isIdentStart hc, hu⟩)
    rw [word?, hliteral, if_neg Bool.false_ne_true, identifier?]
    dsimp only
    rw [htake, hdrop]
    generalize String.ofList (c :: u) = n at hname ⊢
    simp [hc, hname]

end Names

theorem lexed_ident {n : String} {raw : Bool} (h : Token.ValidName n raw) {rest : List Char}
    (hrest : EndsName rest) :
    Lexed ((Token.identText n raw).toList ++ rest) [.token (.ident n raw)] rest := by
  obtain ⟨c, u, hn, hc, hu⟩ := exists_chars_of_isIdentifier h.isIdentifier
  have hname : n = String.ofList (c :: u) := by rw [← hn, String.ofList_toList]
  cases raw with
  | false =>
    rw [Token.identText, if_neg Bool.false_ne_true, hn, hname]
    exact lexed_plainName hc hu hrest
  | true =>
    have htext : (Token.identText n true).toList ++ rest = 'r' :: '#' :: (c :: u ++ rest) := by
      rw [Token.identText, if_pos rfl, String.toList_append, hn]
      rfl
    rw [htext, hname]
    exact lexed_rawName hc hu (hname ▸ h.isRaw rfl) hrest

/-! ### Marks, brackets and spaces -/

variable {c : Char}

/-- A mark of the written forms of types is read by itself, whatever follows. -/
theorem lexed_mark (hc : c ∈ ['<', '>', ',', ':', ';', '&']) (rest : List Char) :
    Lexed (c :: rest) [.token (.punct c (startsMark rest))] rest := by
  refine .single ?_ (by simp)
  simp only [List.mem_cons, List.not_mem_nil, or_false] at hc
  rcases hc with rfl | rfl | rfl | rfl | rfl | rfl <;> rfl

/-- A bracket is read by itself, unless a comment could start there. -/
theorem lexed_side {l : Lexeme} (hc : c ∈ ['(', ')', '[', ']']) (hside : side? c = some l)
    {rest : List Char} (hrest : rest.head? ≠ some '/') : Lexed (c :: rest) [l] rest := by
  refine .single ?_ (by simp)
  have hunreadable : startsWith unreadable (c :: rest) = false := by
    rw [startsWith, Bool.eq_false_iff]
    intro h
    obtain ⟨-, hbehind⟩ := List.cons_prefix_cons.mp (List.isPrefixOf_iff_prefix.mp h)
    obtain ⟨t, rfl⟩ := hbehind
    exact hrest rfl
  have hgap : isGap c = false := by
    have hall : ['(', ')', '[', ']'].all (!isGap ·) = true := by decide
    rw [← Bool.not_eq_true']
    exact List.all_eq_true.mp hall c hc
  rw [lexeme?.eq_def]
  simp only [hgap, hunreadable, hside]
  rfl

/-- What stands in brackets is a group. -/
theorem lexed_group {d : Delimiter} {o c : Char} (ho : o ∈ ['(', ')', '[', ']'])
    (hc : c ∈ ['(', ')', '[', ']']) (hopening : side? o = some (.opening d))
    (hclosing : side? c = some (.closing d)) {u rest : List Char} {ts : List Token}
    (hu : Lexed (u ++ c :: rest) (lexemesOf ts) (c :: rest))
    (hfirst : (u ++ c :: rest).head? ≠ some '/') (hrest : rest.head? ≠ some '/') :
    Lexed (o :: (u ++ c :: rest)) (lexemesOf [.group d ts]) rest := by
  have hall := (lexed_side ho hopening hfirst).trans (hu.trans (lexed_side hc hclosing hrest))
  rwa [lexemesOf, lexemesOf, Token.lexemes, List.append_nil]

theorem lexed_space (rest : List Char) : Lexed (' ' :: rest) [] rest :=
  .step (show lexeme? (' ' :: rest) = some ([], rest) from rfl) (by simp) (.refl rest)

/-! ### The tokens of a text -/

/-- The token that a lexeme is has valid names. -/
def Lexeme.Valid : Lexeme → Prop
  | .token t => t.Valid
  | .opening _ | .closing _ => True

theorem valid_of_identifier? {s rest : List Char} {t : Token} (h : identifier? s = some (t, rest)) :
    t.Valid := by
  -- with or without the mark of a raw name, the name is cut off in the same way
  have hplain : ∀ (raw : Bool) (s : List Char), (if s.head?.any isIdentStart then
      let name := String.ofList (s.takeWhile isIdentContinue)
      if raw && neverNames.contains name then none
      else some (Token.ident name raw, s.dropWhile isIdentContinue)
      else none) = some (t, rest) → t.Valid := by
    intro raw s h
    split at h
    · next hstart =>
      dsimp only at h
      split at h
      · cases h
      · next hraw =>
        cases h
        cases s with
        | nil => cases hstart
        | cons c s =>
          have hc : isIdentStart c = true := hstart
          rw [List.takeWhile_cons_of_pos (isIdentContinue_of_isIdentStart hc)] at hraw ⊢
          refine .ident ⟨?_, fun htrue hmem => hraw ?_⟩
          · rw [Code.isIdentifier, String.toList_ofList]
            dsimp only
            rw [hc, Bool.true_and, List.all_eq_true]
            exact fun d hd => List.mem_takeWhile_imp hd
          · rw [htrue, Bool.true_and, List.contains_eq_mem, decide_eq_true hmem]
    · cases h
  rw [identifier?.eq_def] at h
  dsimp only at h
  split at h
  · exact hplain true _ h
  · exact hplain false _ h

theorem valid_of_punct? {s rest : List Char} {t : Token} (h : punct? s = some (t, rest)) :
    t.Valid := by
  have hlifetime : ∀ s, lifetime? s = some (t, rest) → t.Valid := by
    intro s h
    rw [lifetime?] at h
    grind [Token.Valid.lifetime, Token.Valid.punct]
  rw [punct?.eq_def] at h
  split at h
  · exact hlifetime _ h
  · split at h
    · cases h
      exact .punct _ _
    · cases h
  · cases h

theorem valid_of_token? {s rest : List Char} {t : Token} (h : token? s = some (t, rest)) :
    t.Valid := by
  rw [token?] at h
  split at h
  · next r hliteral =>
    obtain rfl := Option.some.inj h
    obtain ⟨_, -, heq⟩ := Option.map_eq_some_iff.mp hliteral
    cases heq
    exact .literal _
  · split at h
    · next r hpunct =>
      obtain rfl := Option.some.inj h
      exact valid_of_punct? hpunct
    · rw [word?] at h
      split at h
      · cases h
      · exact valid_of_identifier? h

theorem valid_of_docAttribute? {isInner : Bool} {body : List Char} {ls : List Lexeme}
    (h : docAttribute? isInner body = some ls) : ∀ l ∈ ls, l.Valid := by
  have hdoc : (Token.name "doc").Valid := .ident ⟨by decide, fun h => by cases h⟩
  rw [docAttribute?] at h
  split at h
  · cases h
    cases isInner <;> simp [Lexeme.Valid, Token.mark, Token.Valid.punct, Token.Valid.literal, hdoc]
  · cases h

theorem valid_of_comment? {s rest : List Char} {ls : List Lexeme}
    (h : comment? s = some (ls, rest)) : ∀ l ∈ ls, l.Valid := by
  -- a comment is an attribute or nothing at all
  have hdoc : ∀ {isInner : Bool} {body after : List Char},
      (docAttribute? isInner body).map (fun ls => (ls, after)) = some (ls, rest) →
        ∀ l ∈ ls, l.Valid := by
    intro isInner body after h
    obtain ⟨_, hls, heq⟩ := Option.map_eq_some_iff.mp h
    cases heq
    exact valid_of_docAttribute? hls
  have hnone : ∀ {after : List Char}, some (([] : List Lexeme), after) = some (ls, rest) →
      ∀ l ∈ ls, l.Valid := by
    intro after h
    cases h
    exact fun l hl => absurd hl List.not_mem_nil
  rw [comment?.eq_def] at h
  split at h
  · rw [lineComment?] at h
    dsimp only at h
    split at h
    · exact hdoc h
    · exact hnone h
    · exact hdoc h
    · exact hnone h
  · rw [bracketComment?.eq_def] at h
    split at h
    · cases h
    · exact hdoc h
    · split at h
      · exact hnone h
      · exact hdoc h
    · exact hnone h
  · cases h

theorem valid_of_lexeme? {s rest : List Char} {ls : List Lexeme}
    (h : lexeme? s = some (ls, rest)) : ∀ l ∈ ls, l.Valid := by
  -- in the order in which the lexer tries: gap, unreadable literal, side, comment, token
  rw [lexeme?.eq_def] at h
  split at h
  · cases h
  · next c s =>
    split at h
    · cases h
      exact fun l hl => absurd hl List.not_mem_nil
    · split at h
      · cases h
        exact List.forall_mem_singleton.mpr (.literal _)
      · split at h
        · next l hside =>
          cases h
          refine List.forall_mem_singleton.mpr ?_
          simp only [side?] at hside
          grind [Lexeme.Valid]
        · split at h
          · next hcomment =>
            cases h
            exact valid_of_comment? hcomment
          · obtain ⟨⟨t, r⟩, htoken, heq⟩ := Option.map_eq_some_iff.mp h
            cases heq
            exact List.forall_mem_singleton.mpr (valid_of_token? htoken)

theorem valid_of_scanWithin? {fuel : Nat} {s : List Char} {ls : List Lexeme}
    (h : scanWithin? fuel s = some ls) : ∀ l ∈ ls, l.Valid := by
  induction fuel generalizing s ls with
  | zero =>
    cases s with
    | nil =>
      cases h
      exact fun l hl => absurd hl List.not_mem_nil
    | cons c s => cases h
  | succ fuel ih =>
    cases s with
    | nil =>
      cases h
      exact fun l hl => absurd hl List.not_mem_nil
    | cons c s =>
      rw [scanWithin?] at h
      split at h
      · cases h
      · next first rest hfirst =>
        obtain ⟨more, hmore, rfl⟩ := Option.map_eq_some_iff.mp h
        exact List.forall_mem_append.mpr ⟨valid_of_lexeme? hfirst, ih hmore⟩
      · simp

theorem valid_of_nestFrom {done ts : List Token} {outer : List (Delimiter × List Token)}
    {ls : List Lexeme} (hls : ∀ l ∈ ls, l.Valid) (hdone : Tokens.Valid done)
    (houter : ∀ o ∈ outer, Tokens.Valid o.2) (h : nestFrom done outer ls = some ts) :
    Tokens.Valid ts := by
  -- on the lexemes: what is done at each level that is open is valid
  induction ls generalizing done outer with
  | nil =>
    cases outer with
    | nil =>
      rw [nestFrom] at h
      cases h
      exact fun t ht => hdone t (List.mem_reverse.mp ht)
    | cons o outer =>
      rw [nestFrom] at h
      cases h
  | cons l ls ih =>
    obtain ⟨hl, hrest⟩ := List.forall_mem_cons.mp hls
    cases l with
    | token t =>
      rw [nestFrom] at h
      exact ih hrest (List.forall_mem_cons.mpr ⟨hl, hdone⟩) houter h
    | opening d =>
      rw [nestFrom] at h
      exact ih hrest (fun t ht => absurd ht List.not_mem_nil)
        (List.forall_mem_cons.mpr ⟨hdone, houter⟩) h
    | closing d =>
      cases outer with
      | nil =>
        rw [nestFrom] at h
        cases h
      | cons o outer =>
        obtain ⟨d', around⟩ := o
        obtain ⟨haround, houter⟩ := List.forall_mem_cons.mp houter
        rw [nestFrom] at h
        split at h
        · refine ih hrest (List.forall_mem_cons.mpr ⟨.group _ fun t ht => ?_, haround⟩) houter h
          exact hdone t (List.mem_reverse.mp ht)
        · cases h

end Lexer

/-- The names among the tokens of a text are valid. -/
theorem valid_of_tokenize? {text : String} {ts : Tokens} (h : tokenize? text = some ts) :
    ts.Valid := by
  obtain ⟨ls, hls, hnest⟩ := Option.bind_eq_some_iff.mp h
  exact Lexer.valid_of_nestFrom (Lexer.valid_of_scanWithin? hls)
    (fun t ht => absurd ht List.not_mem_nil) (fun o ho => absurd ho List.not_mem_nil) hnest

end TypedSheets.Code
