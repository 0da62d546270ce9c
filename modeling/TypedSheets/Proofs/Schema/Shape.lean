import TypedSheets.Proofs.Code.Constant
import TypedSheets.Proofs.Schema.Reread

/-!
# Types that are read back

A declared type is stored as the written form of its shape, and read again from there. The written
form gives tokens, and these are read to what the shape says. The last token depends on what follows
the written form, so that there are tokens for either case. From the parts of a shape both are
carried over to the whole, one lemma for each form.

## Main definitions

* `TypeShape.ReadsBack` — a length of an array that is written as it is read
* `TypeShape.Spelling`, `TypeShape.Spelled` — tokens of a written form, and that there are any

## Main results

* `TypeShape.spelled_of_named` — the written form of every shape that was read has tokens
* `TypeShape.Spelled.parse?_text` — and is read to what the shape says
* `TypeShape.readsBack_natText`, `TypeShape.readsBack_name` — numbers and names as lengths of arrays
* `TypeShape.parse?_text_iff` — which shapes come back
-/

namespace TypedSheets

namespace TypeShape

open Code

/-! ### Written forms -/

/-- How the written form of a shape starts: with a name, a bracket or an ampersand. -/
def StartsType (u : List Char) : Prop :=
  ∃ c v, u = c :: v ∧ (Lexer.isIdentStart c = true ∨ c ∈ ['(', '[', '&'])

/-- What stands behind the written form of a shape inside another. -/
def EndsText (rest : List Char) : Prop := ∀ c ∈ rest.head?, c ∈ [',', ';', '>', ')', ']']

/-- A text that is read, however deep it stands, to an expression which is written so again. Decimal
numbers and names are such lengths. It remains to be asked of the other expressions that may stand
for a length: literals with a base, a gap or a suffix, paths of several segments, and expressions of
several parts, as with operators, casts, calls and blocks. -/
def ReadsBack (length : String) : Prop :=
  ∃ ts, (∀ rest, Lexer.Lexed (length.toList ++ ']' :: rest) (lexemesOf ts) (']' :: rest)) ∧
    ∀ depth, 4 * length.length + 4 ≤ depth → ∃ e, ((rules depth).expr true).run ts = some (e, []) ∧
      Token.textOf e.tokens = length

/-- Tokens that the written form of a shape gives where a mark follows, or none follows, and what
they are read to. -/
structure Spelling (s : TypeShape) (next : Bool) (ts : Tokens) : Prop where
  opens : OpensType ts
  lexed {rest : List Char} (hrest : EndsText rest) (hnext : Lexer.startsMark rest = next) :
    Lexer.Lexed (s.text.toList ++ rest) (lexemesOf ts) rest
  takes {depth : Nat} (hdepth : 4 * s.text.length + 4 ≤ depth) (allowPlus : Bool) :
    Takes EndsType Code.TypeSyntax.shape ((rules depth).type allowPlus) ts s.reread?

/-- The written form of a shape has tokens which are read, whatever follows. -/
structure Spelled (s : TypeShape) : Prop where
  starts : StartsType s.text.toList
  spelling : ∀ next, ∃ ts, Spelling s next ts

namespace EndsText

theorem nil : EndsText [] := fun _ h => absurd h (Option.not_mem_none _)

theorem of_mem {c : Char} (hc : c ∈ [',', ';', '>', ')', ']']) (rest : List Char) :
    EndsText (c :: rest) := fun _ hd => Option.some.inj hd ▸ hc

variable {rest : List Char} (h : EndsText rest)

include h

theorem head?_ne_slash : rest.head? ≠ some '/' := fun hslash => absurd (h '/' hslash) (by decide)

theorem endsName : Lexer.EndsName rest := by
  intro c hc
  have hmem := h c hc
  simp only [List.mem_cons, List.not_mem_nil, or_false] at hmem
  rcases hmem with rfl | rfl | rfl | rfl | rfl <;> decide

end EndsText

namespace StartsType

variable {u : List Char}

theorem of_mem {c : Char} (hc : c ∈ ['(', '[', '&']) (v : List Char) : StartsType (c :: v) :=
  ⟨c, v, rfl, .inr hc⟩

variable (h : StartsType u)

include h

theorem append (rest : List Char) : StartsType (u ++ rest) := by
  obtain ⟨c, v, rfl, hc⟩ := h
  exact ⟨c, v ++ rest, rfl, hc⟩

theorem head?_ne {d : Char} (hstart : Lexer.isIdentStart d = false) (hd : d ∉ ['(', '[', '&']) :
    u.head? ≠ some d := by
  obtain ⟨c, v, rfl, hc⟩ := h
  intro hhead
  obtain rfl := Option.some.inj hhead
  rcases hc with hc | hc
  · rw [hstart] at hc
    cases hc
  · exact hd hc

theorem head?_ne_slash : u.head? ≠ some '/' := h.head?_ne (by decide) (by decide)

theorem dropMark_eq : Text.dropMark u = u := by
  have hmark := h.head?_ne (d := Char.ofNat 0xFEFF) (by decide +kernel) (by decide)
  obtain ⟨c, v, rfl, -⟩ := h
  refine Text.dropMark_cons (fun heq => hmark ?_) v
  rw [List.head?_cons, ← heq, Char.ofNat_toNat]

/-- Whether a mark stands there does not depend on what follows. -/
theorem exists_startsMark_append : ∃ joint, ∀ rest, Lexer.startsMark (u ++ rest) = joint := by
  have hslash := h.head?_ne_slash
  obtain ⟨c, v, rfl, -⟩ := h
  have hcomment {word : String} (hword : word.toList.head? = some '/') (rest : List Char) :
      Lexer.startsWith word (c :: v ++ rest) = false := by
    have hc : c ≠ '/' := fun heq => hslash (by rw [heq]; rfl)
    obtain ⟨more, hmore⟩ := List.head?_eq_some_iff.mp hword
    simp [Lexer.startsWith, hmore, List.isPrefixOf, hc.symm]
  refine ⟨Lexer.operatorMarks.contains c, fun rest => ?_⟩
  rw [Lexer.startsMark, hcomment rfl, hcomment rfl]
  simp

end StartsType

/-- The word for what may be changed through a reference, or none. -/
theorem lexed_mutability (isMutable : Bool) (rest : List Char) :
    Lexer.Lexed ((if isMutable then ['m', 'u', 't', ' '] else []) ++ rest)
      (lexemesOf (if isMutable then [.name "mut"] else [])) rest := by
  cases isMutable with
  | true =>
    have hspace : Lexer.EndsName (' ' :: rest) := fun c hc => by cases hc; decide
    have hname : Token.ValidName "mut" false := ⟨by decide, by decide⟩
    exact (Lexer.lexed_ident hname hspace).trans (Lexer.lexed_space rest)
  | false => exact .refl rest

namespace Spelled

variable {s : TypeShape} (h : s.Spelled)

include h

theorem slice : (slice s).Spelled := by
  have htext : (TypeShape.slice s).text.toList = '[' :: (s.text.toList ++ [']']) := by
    simp [text, String.toList_append]
  refine ⟨htext ▸ .of_mem (by decide) _, fun next => ?_⟩
  obtain ⟨ts, hopens, hlexed, htakes⟩ := h.spelling false
  refine ⟨[.group .bracket ts], .group (by decide) ts [], fun {rest} hrest _ => ?_, ?_⟩
  · rw [htext, List.cons_append, List.append_assoc]
    exact Lexer.lexed_group (by decide) (by decide) rfl rfl (hlexed (.of_mem (by decide) _) rfl)
      (h.starts.append _).head?_ne_slash hrest.head?_ne_slash
  · intro depth hdepth allowPlus
    have hlength := congrArg List.length htext
    simp only [String.length_toList, List.length_cons, List.length_append] at hlength
    -- the brackets take one level, and at least one character of the written form
    obtain ⟨depth, rfl⟩ : ∃ d, depth = d + 1 := ⟨depth - 1, by omega⟩
    rw [reread?]
    exact Rules.takes_sliceType (htakes (by omega) true) allowPlus

theorem array {length : String} (hlength : ReadsBack length) : (array s length).Spelled := by
  have htext : (TypeShape.array s length).text.toList =
      '[' :: (s.text.toList ++ ';' :: ' ' :: (length.toList ++ [']'])) := by
    simp [text, String.toList_append]
  refine ⟨htext ▸ .of_mem (by decide) _, fun next => ?_⟩
  obtain ⟨ts, hopens, hlexed, htakes⟩ := h.spelling true
  obtain ⟨ls, hlexedLength, hreads⟩ := hlength
  -- a group of the element, a semicolon and the length
  refine ⟨[.group .bracket (ts ++ .mark ';' :: ls)], .group (by decide) _ [],
    fun {rest} hrest _ => ?_, ?_⟩
  · have hcut : (TypeShape.array s length).text.toList ++ rest =
        '[' :: ((s.text.toList ++ ';' :: ' ' :: length.toList) ++ ']' :: rest) := by
      simp [htext]
    rw [hcut]
    refine Lexer.lexed_group (by decide) (by decide) rfl rfl ?_ ?_ hrest.head?_ne_slash
    · have hbehind := (Lexer.lexed_mark (c := ';') (by decide)
        (' ' :: (length.toList ++ ']' :: rest))).trans
          ((Lexer.lexed_space _).trans (hlexedLength rest))
      rw [List.append_assoc, lexemesOf_append]
      exact (hlexed (.of_mem (by decide) _) rfl).trans hbehind
    · rw [List.append_assoc]
      exact (h.starts.append _).head?_ne_slash
  · intro depth hdepth allowPlus
    have hlength := congrArg List.length htext
    simp only [String.length_toList, List.length_cons, List.length_append] at hlength
    obtain ⟨depth, rfl⟩ : ∃ d, depth = d + 1 := ⟨depth - 1, by omega⟩
    obtain ⟨e, hrun, htokens⟩ := hreads depth (by omega)
    rw [reread?, ← htokens]
    exact Rules.takes_arrayType (htakes (by omega) true) hrun allowPlus

theorem reference (isMutable : Bool) : (reference isMutable s).Spelled := by
  have htext : (TypeShape.reference isMutable s).text.toList =
      '&' :: ((if isMutable then ['m', 'u', 't', ' '] else []) ++ s.text.toList) := by
    cases isMutable <;> simp [text, String.toList_append]
  refine ⟨htext ▸ .of_mem (by decide) _, fun next => ?_⟩
  obtain ⟨ts, hopens, hlexed, htakes⟩ := h.spelling next
  -- whether the sign is joined to what follows depends on the type alone, not on what is behind it
  obtain ⟨joint, hjoint⟩ : ∃ joint, ∀ rest, Lexer.startsMark
      ((if isMutable then ['m', 'u', 't', ' '] else []) ++ (s.text.toList ++ rest)) = joint := by
    cases isMutable with
    | true => exact ⟨false, fun rest => rfl⟩
    | false => exact h.starts.exists_startsMark_append
  refine ⟨.punct '&' joint :: ((if isMutable then [.name "mut"] else []) ++ ts), .amp joint _,
    fun {rest} hrest hnext => ?_, ?_⟩
  · have hword := lexed_mutability isMutable (s.text.toList ++ rest)
    have hamp := Lexer.lexed_mark (c := '&') (by decide)
      ((if isMutable then ['m', 'u', 't', ' '] else []) ++ (s.text.toList ++ rest))
    rw [hjoint] at hamp
    rw [htext, List.cons_append, List.append_assoc, lexemesOf, lexemesOf_append]
    exact hamp.trans (hword.trans (hlexed hrest hnext))
  · intro depth hdepth allowPlus
    have hlength := congrArg List.length htext
    simp only [String.length_toList, List.length_cons, List.length_append] at hlength
    obtain ⟨depth, rfl⟩ : ∃ d, depth = d + 1 := ⟨depth - 1, by omega⟩
    rw [reread?]
    exact Rules.takes_referenceType hopens (htakes (by omega) false) joint isMutable allowPlus

end Spelled

/-! ### Lists of written forms -/

/-- Tokens of the written forms of shapes with commas between them. -/
structure Spellings (shapes : List TypeShape) (next : Bool) (tss : List Tokens) : Prop where
  each : List.Forall₂ (fun ts s => ∃ next, Spelling s next ts) tss shapes
  opens : OpensType ([Token.mark ','].intercalate tss)
  lexed {rest : List Char} (hrest : EndsText rest) (hnext : Lexer.startsMark rest = next) :
    Lexer.Lexed ((", ".intercalate (texts shapes)).toList ++ rest)
      (lexemesOf ([Token.mark ','].intercalate tss)) rest

theorem exists_spellings {shapes : List TypeShape} (hne : shapes ≠ [])
    (h : ∀ s ∈ shapes, s.Spelled) (next : Bool) : ∃ tss, Spellings shapes next tss := by
  -- on the shapes: behind each but the last a comma follows, which is a mark
  induction shapes with
  | nil => exact absurd rfl hne
  | cons s shapes ih =>
    obtain ⟨hs, hshapes⟩ := List.forall_mem_cons.mp h
    cases shapes with
    | nil =>
      obtain ⟨ts, hts⟩ := hs.spelling next
      refine ⟨[ts], .cons ⟨next, hts⟩ .nil, ?_, fun hrest hnext => ?_⟩
      · rw [List.intercalate_singleton]
        exact hts.opens
      · rw [texts, texts, String.intercalate_singleton, List.intercalate_singleton]
        exact hts.lexed hrest hnext
    | cons s' shapes =>
      obtain ⟨ts, hts⟩ := hs.spelling true
      obtain ⟨tss, heach, hopens, hlexed⟩ := ih (List.cons_ne_nil _ _) hshapes
      cases heach with
      | @cons ts' _ tss _ hts' heach =>
        refine ⟨ts :: ts' :: tss, .cons ⟨true, hts⟩ (.cons hts' heach), ?_,
          fun {rest} hrest hnext => ?_⟩
        · rw [List.intercalate_cons_cons, List.append_assoc]
          exact hts.opens.append _
        · have hcut : (", ".intercalate (texts (s :: s' :: shapes))).toList ++ rest =
              s.text.toList ++ ',' :: ' ' ::
                ((", ".intercalate (texts (s' :: shapes))).toList ++ rest) := by
            simp [texts, String.intercalate_cons_cons, String.toList_append]
          have hmark := Lexer.lexed_mark (c := ',') (by decide)
            (' ' :: ((", ".intercalate (texts (s' :: shapes))).toList ++ rest))
          rw [hcut, List.intercalate_cons_cons, List.append_assoc, lexemesOf_append,
            lexemesOf_append]
          exact (hts.lexed (.of_mem (by decide) _) rfl).trans
            (hmark.trans ((Lexer.lexed_space _).trans (hlexed hrest hnext)))

theorem starts_texts {shapes : List TypeShape} (hne : shapes ≠ [])
    (h : ∀ s ∈ shapes, s.Spelled) : StartsType (", ".intercalate (texts shapes)).toList := by
  match shapes, hne with
  | s :: rest, _ =>
    have hs := (h s List.mem_cons_self).starts
    cases rest with
    | nil => rwa [texts, texts, String.intercalate_singleton]
    | cons s' rest =>
      rw [texts, texts, String.intercalate_cons_cons, String.toList_append, String.toList_append]
      exact (hs.append _).append _

theorem length_text_le {shapes : List TypeShape} {s : TypeShape} (h : s ∈ shapes) :
    s.text.length ≤ (", ".intercalate (texts shapes)).length := by
  induction shapes with
  | nil => cases h
  | cons s' rest ih =>
    cases rest with
    | nil =>
      rw [List.mem_singleton.mp h, texts, texts, String.intercalate_singleton]
    | cons s'' rest =>
      rw [texts, texts, String.intercalate_cons_cons, String.length_append, String.length_append]
      rcases List.mem_cons.mp h with rfl | h
      · omega
      · have := ih h
        rw [texts] at this
        omega

theorem Spellings.takes {shapes : List TypeShape} {next : Bool} {tss : List Tokens}
    (h : Spellings shapes next tss) {depth : Nat}
    (hdepth : 4 * (", ".intercalate (texts shapes)).length + 4 ≤ depth) (allowPlus : Bool) :
    List.Forall₂ (fun ts s => OpensType ts ∧
      Takes EndsType TypeSyntax.shape ((rules depth).type allowPlus) ts s.reread?) tss shapes := by
  have hall : ∀ s ∈ shapes, 4 * s.text.length + 4 ≤ depth := fun s hs => by
    have := length_text_le hs
    omega
  have heach := h.each
  clear h hdepth
  induction heach with
  | nil => exact .nil
  | cons hts _ ih =>
    obtain ⟨hs, hrest⟩ := List.forall_mem_cons.mp hall
    obtain ⟨next, hts⟩ := hts
    exact .cons ⟨hts.opens, hts.takes hs allowPlus⟩ (ih hrest)

theorem Spellings.ne_nil {shapes : List TypeShape} {next : Bool} {tss : List Tokens}
    (h : Spellings shapes next tss) : tss ≠ [] := by
  rintro rfl
  have hopens : OpensType [] := h.opens
  cases hopens

theorem spelled_tuple {elems : List TypeShape} (h : ∀ e ∈ elems, e.Spelled) :
    (tuple elems).Spelled := by
  have htext : (tuple elems).text.toList =
      '(' :: ((", ".intercalate (texts elems)).toList ++ [')']) := by
    simp [text, String.toList_append]
  refine ⟨htext ▸ .of_mem (by decide) _, fun next => ?_⟩
  -- the text bounds how deep the elements nest
  have hlength := congrArg List.length htext
  simp only [String.length_toList, List.length_cons, List.length_append] at hlength
  cases elems with
  | nil =>
    refine ⟨[.group .paren []], .group (by decide) [] [], fun {rest} hrest _ => ?_, ?_⟩
    · rw [htext]
      exact Lexer.lexed_group (u := []) (by decide) (by decide) rfl rfl (.refl _) (by simp)
        hrest.head?_ne_slash
    · intro depth hdepth allowPlus
      obtain ⟨depth, rfl⟩ : ∃ d, depth = d + 1 := ⟨depth - 1, by omega⟩
      exact Rules.takes_unitType allowPlus
  | cons e elems =>
    obtain ⟨tss, hspellings⟩ := exists_spellings (List.cons_ne_nil e elems) h false
    refine ⟨[.group .paren ([Token.mark ','].intercalate tss)], .group (by decide) _ [],
      fun {rest} hrest _ => ?_, ?_⟩
    · rw [htext, List.cons_append, List.append_assoc]
      have hinner := hspellings.lexed (.of_mem (c := ')') (by decide) rest) rfl
      exact Lexer.lexed_group (by decide) (by decide) rfl rfl hinner
        ((starts_texts (List.cons_ne_nil e elems) h).append _).head?_ne_slash hrest.head?_ne_slash
    · intro depth hdepth allowPlus
      obtain ⟨depth, rfl⟩ : ∃ d, depth = d + 1 := ⟨depth - 1, by omega⟩
      rw [reread?, rereadEach?_eq_mapM]
      exact Rules.takes_parenType (hspellings.takes (by omega) true) hspellings.ne_nil
        hspellings.opens allowPlus

/-! ### Written forms of paths -/

/-- The written form of the arguments of a path. -/
def argsText : List TypeShape → String
  | [] => ""
  | args => "<" ++ ", ".intercalate (texts args) ++ ">"

theorem text_path (segments : List String) (args : List TypeShape) :
    (path segments args).text = "::".intercalate segments ++ argsText args := by
  cases args with
  | nil => rw [text, argsText, String.append_empty]
  | cons a args => simp [text, argsText, String.append_assoc]

theorem exists_ident_of_isSegmentName {m : String} (h : IsSegmentName m) :
    ∃ n raw, nameToken m = .ident n raw ∧ Token.ValidName n raw ∧ Token.identText n raw = m := by
  obtain ⟨n, raw, hn⟩ := exists_ident_of_isSegment h.isSegment
  have hvalid := h.valid
  have htext := h.text
  rw [hn] at hvalid htext
  cases hvalid with
  | ident hname => exact ⟨n, raw, hn, hname, htext⟩

theorem starts_segment {m : String} (h : IsSegmentName m) : ∃ c v, m.toList = c :: v ∧
    Lexer.isIdentStart c = true := by
  obtain ⟨n, raw, -, hname, rfl⟩ := exists_ident_of_isSegmentName h
  cases raw with
  | true =>
    rw [Token.identText, if_pos rfl, String.toList_append]
    exact ⟨'r', _, rfl, by decide⟩
  | false =>
    obtain ⟨c, u, hn, hc, -⟩ := Lexer.exists_chars_of_isIdentifier hname.isIdentifier
    rw [Token.identText, if_neg Bool.false_ne_true]
    exact ⟨c, u, hn, hc⟩

theorem exists_start_names {m : String} (hm : IsSegmentName m) (ms : List String) :
    ∃ c v, ("::".intercalate (m :: ms)).toList = c :: v ∧ Lexer.isIdentStart c = true := by
  obtain ⟨c, v, hv, hc⟩ := starts_segment hm
  cases ms with
  | nil => exact ⟨c, v, by rw [String.intercalate_singleton, hv], hc⟩
  | cons m' ms =>
    rw [String.intercalate_cons_cons, String.toList_append, String.toList_append, hv]
    exact ⟨c, _, rfl, hc⟩

/-- No mark starts names. -/
theorem startsMark_names {m : String} {ms : List String} (hm : IsSegmentName m)
    (rest : List Char) :
    Lexer.startsMark (("::".intercalate (m :: ms)).toList ++ rest) = false := by
  obtain ⟨c, v, hv, hc⟩ := exists_start_names hm ms
  have hmark := (Lexer.startsOnlyName_of_isIdentStart hc).notMark
  rw [hv, Lexer.startsMark]
  simp [hmark]

theorem lexed_names {m : String} {ms : List String} (h : ∀ s ∈ m :: ms, IsSegmentName s)
    {rest : List Char} (hrest : Lexer.EndsName rest) :
    Lexer.Lexed (("::".intercalate (m :: ms)).toList ++ rest)
      (lexemesOf (nameToken m :: Rules.furtherNames ms)) rest := by
  induction ms generalizing m with
  | nil =>
    obtain ⟨n, raw, hn, hname, rfl⟩ := exists_ident_of_isSegmentName (h m List.mem_cons_self)
    rw [String.intercalate_singleton, hn]
    exact Lexer.lexed_ident hname hrest
  | cons m' ms ih =>
    obtain ⟨hm, hms⟩ := List.forall_mem_cons.mp h
    obtain ⟨n, raw, hn, hname, htext⟩ := exists_ident_of_isSegmentName hm
    have hcut : ("::".intercalate (m :: m' :: ms)).toList ++ rest =
        m.toList ++ ':' :: ':' :: (("::".intercalate (m' :: ms)).toList ++ rest) := by
      simp [String.intercalate_cons_cons, String.toList_append]
    -- a name ends at the colons, which are two marks of which the first is joined
    have hcolon : Lexer.EndsName (':' :: ':' ::
        (("::".intercalate (m' :: ms)).toList ++ rest)) := fun c hc => by cases hc; decide
    have hfirst := Lexer.lexed_ident hname hcolon
    have hcolons := (Lexer.lexed_mark (c := ':') (by decide) (':' ::
      (("::".intercalate (m' :: ms)).toList ++ rest))).trans
        (Lexer.lexed_mark (c := ':') (by decide) _)
    rw [startsMark_names (hms m' List.mem_cons_self) rest] at hcolons
    rw [hcut, hn, ← htext]
    exact hfirst.trans (hcolons.trans (ih hms))

/-- Tokens of the arguments of a path, which are read as such behind a name that may take any. -/
structure ArgsSpelling (args : List TypeShape) (next : Bool) (tail : Tokens) : Prop where
  lexed {rest : List Char} (hrest : EndsText rest) (hnext : Lexer.startsMark rest = next) :
    Lexer.Lexed ((argsText args).toList ++ rest) (lexemesOf tail) rest
  takes {depth : Nat} (hdepth : 4 * (argsText args).length ≤ depth) {t : Token}
    (ht : isSegment t = true) (hplace : args ≠ [] → isPlaceWord t = false) :
    Rules.TakesSegment (rules depth) t tail (rereadEach? args)

theorem exists_argsSpelling {args : List TypeShape} (h : ∀ a ∈ args, a.Spelled) (next : Bool) :
    ∃ tail, ArgsSpelling args next tail := by
  cases args with
  | nil => exact ⟨[], fun _ _ => .refl _, fun _ _ ht _ => Rules.takesSegment_nil ht⟩
  | cons a args =>
    -- whether an angle is joined to what follows is part of its token
    obtain ⟨joint, hjoint⟩ := (starts_texts (List.cons_ne_nil a args) h).exists_startsMark_append
    obtain ⟨tss, hspellings⟩ := exists_spellings (List.cons_ne_nil a args) h true
    have htext : (argsText (a :: args)).toList =
        '<' :: ((", ".intercalate (texts (a :: args))).toList ++ ['>']) := by
      simp [argsText, String.toList_append]
    refine ⟨.punct '<' joint :: ([Token.mark ','].intercalate tss ++ [.punct '>' next]),
      fun {rest} hrest hnext => ?_, fun {depth} hdepth {t} ht hplace => ?_⟩
    · have hopening := Lexer.lexed_mark (c := '<') (by decide)
        ((", ".intercalate (texts (a :: args))).toList ++ '>' :: rest)
      have hclosing := Lexer.lexed_mark (c := '>') (by decide) rest
      rw [hjoint] at hopening
      rw [hnext] at hclosing
      rw [htext, List.cons_append, List.append_assoc, lexemesOf, lexemesOf_append]
      exact hopening.trans ((hspellings.lexed (.of_mem (by decide) _) rfl).trans hclosing)
    · have hlength := congrArg List.length htext
      simp only [String.length_toList, List.length_cons, List.length_append] at hlength
      rw [rereadEach?_eq_mapM]
      exact Rules.takesSegment_angleArgs ht (hplace (List.cons_ne_nil a args))
        (Rules.takes_angleArgs (hspellings.takes (by omega) true) hspellings.ne_nil joint next)
        (hspellings.opens.append _)

theorem isModuleName_of_isSegment {t : Token} (h : isSegment t = true) (htry : t.text ≠ "try") :
    isModuleName t = true := by
  obtain ⟨n, raw, rfl⟩ := exists_ident_of_isSegment h
  cases raw with
  | true => rfl
  | false =>
    have hn : n ≠ "try" := htry
    simp only [isSegment, isPlaceWord, startsAnyWord, startsWord, List.any_cons, List.any_nil,
      Bool.or_false, beq_eq_false_iff_ne.mpr hn] at h
    simp only [isModuleName, startsAnyWord, startsWord, List.any_cons, List.any_nil, Bool.or_false]
    grind

theorem spelled_path {segments : List String} {args : List TypeShape} (hne : segments ≠ [])
    (hsegments : ∀ s ∈ segments, IsSegmentName s)
    (hlast : args ≠ [] → ∀ s ∈ segments.getLast?, isPlaceWord (nameToken s) = false)
    (hargs : ∀ a ∈ args, a.Spelled) : (path segments args).Spelled := by
  obtain ⟨m, ms, rfl⟩ := List.exists_cons_of_ne_nil hne
  obtain ⟨c, v, hv, hc⟩ := exists_start_names (hsegments m List.mem_cons_self) ms
  have htext : (path (m :: ms) args).text.toList =
      ("::".intercalate (m :: ms)).toList ++ (argsText args).toList := by
    rw [text_path, String.toList_append]
  refine ⟨htext ▸ .append ⟨c, v, hv, .inl hc⟩ _, fun next => ?_⟩
  obtain ⟨tail, hlexed, htakes⟩ := exists_argsSpelling hargs next
  have hm := (hsegments m List.mem_cons_self).isSegment
  refine ⟨nameToken m :: Rules.furtherNames ms ++ tail, .segment hm _,
    fun {rest} hrest hnext => ?_, fun {depth} hdepth allowPlus => ?_⟩
  · have hends : Lexer.EndsName ((argsText args).toList ++ rest) := by
      cases args with
      | nil => exact hrest.endsName
      | cons a args =>
        rw [argsText, String.toList_append, String.toList_append]
        · exact fun c hc => by cases hc; decide
        · exact fun h => by cases h
    rw [htext, List.append_assoc, lexemesOf_append]
    exact (lexed_names hsegments hends).trans (hlexed hrest hnext)
  · have hlength := congrArg List.length htext
    simp only [String.length_toList, List.length_append] at hlength
    obtain ⟨depth, rfl⟩ : ∃ d, depth = d + 1 := ⟨depth - 1, by omega⟩
    -- its colons were the only sign that a path starts there
    by_cases htry : m = "try"
    · subst htry
      exact .of_none fun rest _ => Rules.run_nextType_try allowPlus _
    · rw [reread?, if_neg (by simpa using htry)]
      have hmem := List.getLast_mem (List.cons_ne_nil m ms)
      have hbound : 4 * (argsText args).length ≤ depth := by
        have hnames := congrArg List.length hv
        simp only [String.length_toList, List.length_cons] at hnames
        omega
      have hsegment := htakes hbound (hsegments _ hmem).isSegment
        (fun h => hlast h _ (List.getLast?_eq_some_getLast _))
      have hname : isModuleName (nameToken m) = true :=
        isModuleName_of_isSegment hm ((hsegments m List.mem_cons_self).text.trans_ne htry)
      exact Rules.takes_pathType hsegments hname hsegment allowPlus

/-- A shape of names has a written form which is read, if the lengths of its arrays have. -/
theorem spelled_of_named {s : TypeShape} (h : s.Named) (hplain : s.isPlain = true)
    (hlengths : ∀ l ∈ s.lengths, ReadsBack l) : s.Spelled := by
  induction h with
  | path hne hsegments hlast _ ih =>
    rw [isPlain, isPlainEach_iff] at hplain
    refine spelled_path hne hsegments hlast fun a ha => ih a ha (hplain a ha) fun l hl => ?_
    exact hlengths l (mem_lengthsEach.mpr ⟨a, ha, hl⟩)
  | array length _ ih =>
    obtain ⟨hlength, hlengths⟩ := List.forall_mem_cons.mp hlengths
    exact (ih hplain hlengths).array hlength
  | slice _ ih => exact (ih hplain hlengths).slice
  | reference isMutable _ ih => exact (ih hplain hlengths).reference isMutable
  | tuple _ ih =>
    rw [isPlain, isPlainEach_iff] at hplain
    refine spelled_tuple fun e he => ih e he (hplain e he) fun l hl => ?_
    exact hlengths l (mem_lengthsEach.mpr ⟨e, he, hl⟩)
  | other text => cases hplain

theorem Spelled.parse?_text {s : TypeShape} (h : s.Spelled) : parse? s.text = s.reread? := by
  obtain ⟨ts, hspelling⟩ := h.spelling false
  have htokens : tokenize? s.text = some ts := by
    have hlexed := hspelling.lexed .nil rfl
    rw [List.append_nil] at hlexed
    rw [tokenize?, h.starts.dropMark_eq, hlexed.scan?, Option.bind_some, nest?_lexemesOf]
  have htakes := hspelling.takes le_rfl true
  rw [parse?, typeSyntax?, htokens, Option.bind_some, Reader.whole?, rulesFor]
  cases hreread : s.reread? with
  | none =>
    rw [hreread] at htakes
    have hrun := htakes.run_none .nil
    rw [List.append_nil] at hrun
    rw [hrun]
    rfl
  | some r =>
    rw [hreread] at htakes
    obtain ⟨t, rfl, hrun⟩ := htakes.run_some .nil
    rw [List.append_nil] at hrun
    rw [hrun]
    rfl

/-! ### Types that come back -/

theorem readsBack_natText (n : Nat) : ReadsBack (Number.natText n) := by
  obtain ⟨c, u, hcons⟩ := List.exists_cons_of_ne_nil (Number.natChars_ne_nil n)
  have hdigits := Number.isDigit_of_mem_natChars n
  rw [hcons] at hdigits
  refine ⟨[.literal (Number.natText n)], fun rest => ?_, fun depth hdepth => ?_⟩
  · rw [Number.natText, hcons, String.toList_ofList]
    exact Lexer.lexed_digits hdigits
  · obtain ⟨depth, rfl⟩ : ∃ d, depth = d + 1 := ⟨depth - 1, by omega⟩
    refine ⟨_, Rules.run_nextExpr_literal (rules depth) _, ?_⟩
    simp [ExprSyntax.plain, Token.textOf, Token.textFrom, Token.gap, Token.text]

theorem readsBack_name {n : String} (hn : isIdentifier n = true) (hkeyword : isKeyword n = false) :
    ReadsBack n := by
  have hvalid : Token.ValidName n false := ⟨hn, fun h => by cases h⟩
  have hname : isModuleName (.ident n false) = true := by
    rw [isModuleName, isName, hkeyword]
    rfl
  refine ⟨[.ident n false], fun rest => ?_, fun depth hdepth => ?_⟩
  · exact Lexer.lexed_ident hvalid (EndsText.of_mem (by decide) rest).endsName
  · obtain ⟨depth, rfl⟩ : ∃ d, depth = d + 1 := ⟨depth - 1, by omega⟩
    refine ⟨_, Rules.run_nextExpr_ident (rules depth) hname, ?_⟩
    simp [ExprSyntax.plain, Token.textOf, Token.textFrom, Token.gap, Token.text, Token.identText]

/-- A shape that was read, of known forms and with lengths that read back, comes back from its
written form exactly if it holds no tuple of one type and no path that starts with `try`. Without
arrays, or with arrays whose lengths are decimal numbers and names, nothing is asked of the
lengths. -/
theorem parse?_text_iff {t : String} {s : TypeShape} (h : parse? t = some s)
    (hplain : s.isPlain = true) (hlengths : ∀ l ∈ s.lengths, ReadsBack l) :
    parse? s.text = some s ↔ s.isLasting = true := by
  rw [(spelled_of_named (named_of_parse? h) hplain hlengths).parse?_text, reread?_eq_self_iff]

theorem parse?_text_iff_array :
    let s := reference true
      (array (path ["Option"] [tuple [path ["u8"] [], path ["std", "T"] []]]) "4")
    parse? "&'a mut [Option<(u8, std::T<'a>)>; 4]" = some s ∧ s.isPlain = true ∧
      (∀ l ∈ s.lengths, ReadsBack l) ∧ (parse? s.text = some s ↔ s.isLasting = true) := by
  intro s
  have h : parse? "&'a mut [Option<(u8, std::T<'a>)>; 4]" = some s := by decide +kernel
  have hlengths : ∀ l ∈ s.lengths, ReadsBack l := by
    have hfour := readsBack_natText 4
    rw [show Number.natText 4 = "4" by decide +kernel] at hfour
    exact List.forall_mem_singleton.mpr hfour
  exact ⟨h, by decide, hlengths, parse?_text_iff h (by decide) hlengths⟩

/-- A tuple of one type is written as that type in parentheses, and read back as the type. -/
theorem parse?_text_ne :
    let s := tuple [path ["u8"] []]
    parse? "(u8,)" = some s ∧ s.text = "(u8)" ∧ parse? s.text = some (path ["u8"] []) := by
  decide

end TypeShape

end TypedSheets
