import Mathlib.Data.Nat.Bitwise
import TypedSheets.Code.SchemaExpr

/-!
# The expression of a schema determines it

A text literal has one piece for each character of its text, the character itself or an escape of
it. A reader takes one step for each piece, so the literal reads back as its text, whatever the text
is, and different texts have different literals.

An expression is delimited if it tells its value apart from all others whatever follows it. Fixed
tokens in front, a group around and a sequence of fields keep that. So it goes up from texts and
truth values to descriptors, through their keys and elements, and to whole schemas.

## Main definitions

* `Code.Lexer.Stands` — a piece of a literal stands for a character
* `Code.Delimited` — an expression that tells a value apart from all others
* `Code.structTokens`, `Code.commaTail` — the fields of a structure, and what follows an element

## Main results

* `Code.Lexer.bracedCodePoint?_hexNat` — a code point reads back from its digits
* `Code.Lexer.stands_literalChar` — what is written for a character stands for it
* `Code.stringValue?_textLiteral`, `Code.textLiteral_inj` — text literals read back
* `Code.Delimited.list`, `Code.Delimited.optional` — lists and optional values
* `Code.delimited_semanticExpr`, `Code.delimited_fieldExpr` — meanings and descriptors
* `Code.schemaExpr_inj` — schemas with the same expression are the same
-/

namespace TypedSheets

namespace Number

theorem hexValue?_hexDigit : ∀ d < 16, hexValue? (hexDigit d) = some d := by
  decide

theorem length_hexNat_pos (n : Nat) : 0 < (hexNat n).length := by
  rw [hexNat]
  split
  · exact Nat.zero_lt_one
  · rw [List.length_append, List.length_singleton]
    exact Nat.zero_lt_succ _

theorem length_hexNat_le {n k : Nat} (h : n < 16 ^ (k + 1)) : (hexNat n).length ≤ k + 1 := by
  induction k generalizing n with
  | zero =>
    rw [hexNat, if_pos (by omega)]
    exact Nat.le_refl _
  | succ k ih =>
    rw [hexNat]
    split
    · exact Nat.le_add_left _ _
    · rw [List.length_append, List.length_singleton]
      exact Nat.succ_le_succ (ih (Nat.div_lt_of_lt_mul (by rw [Nat.pow_succ] at h; omega)))

end Number

namespace Code.Lexer

open Number

/-! ### Code points -/

theorem codePointDigits?_hexDigit {count value d : Nat} (hd : d < 16) (hcount : count < 6)
    (r : List Char) : codePointDigits? count value (hexDigit d :: r) =
      codePointDigits? (count + 1) (16 * value + d) r := by
  rw [codePointDigits?, hexValue?_hexDigit d hd]
  exact if_pos hcount

/-- The digits of a number are taken in, if they are not too many. -/
theorem codePointDigits?_hexNat {n : Nat} (h : (hexNat n).length ≤ 6) (r : List Char) :
    codePointDigits? 0 0 (hexNat n ++ r) = codePointDigits? (hexNat n).length n r := by
  induction n using Nat.strongRecOn generalizing r with
  | ind n ih =>
    rw [hexNat] at h ⊢
    split at h
    · next hn =>
      rw [if_pos hn, List.singleton_append, codePointDigits?_hexDigit hn (by decide), Nat.mul_zero,
        Nat.zero_add n]
      rfl
    · next hn =>
      -- all digits but the last are those of the quotient
      rw [List.length_append, List.length_singleton] at h
      rw [if_neg hn, List.append_assoc, ih (n / 16) (by omega) (by omega), List.singleton_append,
        codePointDigits?_hexDigit (Nat.mod_lt _ (by decide)) (by omega), List.length_append,
        List.length_singleton, Nat.div_add_mod]

/-- A code point in braces reads back. -/
theorem bracedCodePoint?_hexNat (c : Char) (r : List Char) :
    bracedCodePoint? (Char.ofNat 0x7B :: (hexNat c.toNat ++ Char.ofNat 0x7D :: r)) =
      some (c, r) := by
  -- a code point has at most six digits in base sixteen
  have hbound : c.toNat < 16 ^ 6 := by
    rcases c.valid with hlow | ⟨-, hhigh⟩
    · exact Nat.lt_trans hlow (by decide)
    · exact Nat.lt_trans hhigh (by decide)
  have hsome : ((hexNat c.toNat).length == 0) = false :=
    beq_eq_false_iff_ne.mpr (Nat.ne_of_gt (length_hexNat_pos c.toNat))
  have hvalid : c.toNat.isValidChar := c.valid
  have hclose : hexValue? (Char.ofNat 0x7D) = none := by decide
  have hdigits : codePointDigits? 0 0 (hexNat c.toNat ++ Char.ofNat 0x7D :: r) =
      some (c.toNat, r) := by
    rw [codePointDigits?_hexNat (length_hexNat_le hbound), codePointDigits?, hclose]
    dsimp only
    rw [hsome, if_neg Bool.false_ne_true, if_neg (by decide), if_pos (by decide)]
  rw [bracedCodePoint?, if_pos (by decide), hdigits]
  dsimp only
  rw [if_pos hvalid, Char.ofNat_toNat]

/-! ### Pieces -/

/-- A piece of a literal stands for a character: a reader takes one step for it. -/
structure Stands (piece : List Char) (c : Char) : Prop where
  value : ∀ fuel r, cookedValue (fuel + 1) (piece ++ r) = c :: cookedValue fuel r
  ends : ∀ fuel r, cookedEnd? .plain (fuel + 1) (piece ++ r) = cookedEnd? .plain fuel r
  ne_nil : piece ≠ []

theorem stands_escape {c d : Char} {behind : List Char} (hline : d ≠ '\n' ∧ d ≠ '\r')
    (h : ∀ r, escape? .plain (d :: (behind ++ r)) = some (c, r)) :
    Stands ('\\' :: d :: behind) c where
  value fuel r := by
    have hstart : startsLineEnd (d :: (behind ++ r)) = false := by simp [startsLineEnd, hline]
    simp [cookedValue, hstart, h r]
  ends fuel r := by
    have hstart : startsLineEnd (d :: (behind ++ r)) = false := by simp [startsLineEnd, hline]
    simp [cookedEnd?, hstart, h r]
  ne_nil := List.cons_ne_nil _ _

theorem stands_self {c : Char} (hquote : c ≠ '"') (hslash : c ≠ '\\') (hreturn : c ≠ '\r') :
    Stands [c] c where
  value fuel r := by
    rw [List.singleton_append]
    simp [cookedValue, hreturn]
  ends fuel r := by
    rw [List.singleton_append]
    simp [cookedEnd?, hreturn, TextKind.admits]
  ne_nil := List.cons_ne_nil _ _

theorem stands_codePoint (c : Char) : Stands (Text.codePoint c) c := by
  have hpiece : Text.codePoint c =
      '\\' :: 'u' :: (Char.ofNat 0x7B :: (hexNat c.toNat ++ [Char.ofNat 0x7D])) := rfl
  rw [hpiece]
  refine stands_escape (by decide) fun r => ?_
  rw [List.cons_append, List.append_assoc, List.singleton_append]
  simp [escape?, bracedCodePoint?_hexNat, TextKind.admits]

/-- How a character is shown in quotes stands for it. -/
theorem stands_shown {c : Char} (hnull : c.toNat ≠ 0) : Stands (Text.shown c) c := by
  -- the five characters with an escape of their own, then NUL, then those that stand for themselves
  rw [Text.shown]
  split
  · next h =>
    rw [eq_of_beq h]
    exact stands_escape (by decide) fun r => rfl
  split
  · next h =>
    rw [eq_of_beq h]
    exact stands_escape (by decide) fun r => rfl
  split
  · next h =>
    rw [eq_of_beq h]
    exact stands_escape (by decide) fun r => rfl
  split
  · next h =>
    rw [eq_of_beq h]
    exact stands_escape (by decide) fun r => rfl
  split
  · next h =>
    rw [eq_of_beq h]
    exact stands_escape (by decide) fun r => rfl
  split
  · next h => exact absurd (eq_of_beq h) hnull
  split
  · next hquote hslash _ hreturn _ _ _ =>
    exact stands_self (by simpa using hquote) (by simpa using hslash) (by simpa using hreturn)
  · exact stands_codePoint c

/-- What is written for a character in a literal stands for it, whatever comes next. -/
theorem stands_literalChar (c : Char) (next : Option Char) : Stands (literalChar c next) c := by
  rw [literalChar]
  split
  · next h =>
    have hnull : c = Char.ofNat 0 := by
      rw [← Char.ofNat_toNat c, eq_of_beq h]
    rw [hnull]
    split
    · exact stands_escape (by decide) fun r => rfl
    · exact stands_escape (by decide) fun r => rfl
  · next h => exact stands_shown (by simpa using h)

/-! ### Literals -/

theorem length_le_literalChars (s : List Char) : s.length ≤ (literalChars s).length := by
  induction s with
  | nil => exact Nat.le_refl _
  | cons c rest ih =>
    have hpiece := List.length_pos_iff.mpr (stands_literalChar c rest.head?).ne_nil
    rw [literalChars, List.length_append, List.length_cons]
    omega

/-- The characters of a literal read back up to the closing quote, with a step for each piece. -/
theorem cooked_literalChars {s : List Char} {fuel : Nat} (h : s.length < fuel) (r : List Char) :
    cookedValue fuel (literalChars s ++ '"' :: r) = s ∧
      cookedEnd? .plain fuel (literalChars s ++ '"' :: r) = some r := by
  induction s generalizing fuel with
  | nil =>
    obtain ⟨fuel, rfl⟩ := Nat.exists_eq_add_one_of_ne_zero (Nat.ne_of_gt h)
    exact ⟨rfl, rfl⟩
  | cons c rest ih =>
    obtain ⟨fuel, rfl⟩ := Nat.exists_eq_add_one_of_ne_zero (Nat.ne_of_gt (Nat.zero_lt_of_lt h))
    have hpiece := stands_literalChar c rest.head?
    obtain ⟨hvalue, hends⟩ := ih (Nat.lt_of_succ_lt_succ h)
    rw [literalChars, List.append_assoc, hpiece.value, hpiece.ends, hvalue]
    exact ⟨rfl, hends⟩

theorem textValue?_stringLiteral (s : String) :
    textValue? (stringLiteral s).toList = some s.toList := by
  have hlong : s.toList.length < (literalChars s.toList ++ ['"']).length + 1 := by
    have := length_le_literalChars s.toList
    rw [List.length_append]
    omega
  obtain ⟨hvalue, hends⟩ := cooked_literalChars hlong []
  rw [stringLiteral, String.toList_ofList, List.cons_append, textValue?]
  simp only [cookedString?, hends, hvalue, Option.map_some]

end Code.Lexer

namespace Code

/-- The literal of a text reads back as the text. -/
theorem stringValue?_textLiteral (s : String) : stringValue? (textLiteral s) = some s := by
  rw [textLiteral, stringValue?, Lexer.textValue?_stringLiteral, Option.map_some,
    String.ofList_toList]

theorem textLiteral_inj {s t : String} (h : textLiteral s = textLiteral t) : s = t := by
  have hvalue := congrArg stringValue? h
  rw [stringValue?_textLiteral, stringValue?_textLiteral] at hvalue
  exact Option.some.inj hvalue

end Code

end TypedSheets

namespace TypedSheets.Code

/-! ### Delimited expressions -/

/-- No other value has an expression that begins as that of `a` does and ends there. -/
def Delimited {α : Type} (expr : α → Tokens) (a : α) : Prop :=
  ∀ b r s, expr a ++ r = expr b ++ s → a = b ∧ r = s

section Delimited

variable {α β : Type} {expr : α → Tokens} {a b : α}

theorem Delimited.inj (ha : Delimited expr a) (h : expr a = expr b) : a = b :=
  (ha b [] [] (congrArg (· ++ []) h)).1

theorem Delimited.prepend (ha : Delimited expr a) (front : Tokens) :
    Delimited (fun x => front ++ expr x) a := by
  intro b r s h
  rw [List.append_assoc, List.append_assoc] at h
  exact ha b r s (List.append_cancel_left h)

theorem Delimited.append (ha : Delimited expr a) (behind : Tokens) :
    Delimited (fun x => expr x ++ behind) a := by
  intro b r s h
  rw [List.append_assoc, List.append_assoc] at h
  obtain ⟨rfl, hrest⟩ := ha b _ _ h
  exact ⟨rfl, List.append_cancel_left hrest⟩

/-- An expression of what a value comes to. -/
theorem Delimited.comp {g : β → α} {x : β} (ha : Delimited expr (g x))
    (hg : ∀ y, g x = g y → x = y) : Delimited (fun y => expr (g y)) x := by
  intro y r s h
  obtain ⟨heq, h⟩ := ha (g y) r s h
  exact ⟨hg y heq, h⟩

theorem delimited_token {token : α → Token} (h : ∀ b, token a = token b → a = b) :
    Delimited (fun x => [token x]) a := by
  intro b r s heq
  obtain ⟨htoken, hrest⟩ := List.cons.inj heq
  exact ⟨h b htoken, hrest⟩

theorem delimited_group (d : Delimiter) (h : ∀ b, expr a = expr b → a = b) :
    Delimited (fun x => [.group d (expr x)]) a :=
  delimited_token fun b heq => h b (Token.group.inj heq).2

/-! ### Simple values -/

theorem Token.name_inj {m n : String} (h : Token.name m = Token.name n) : m = n :=
  (Token.ident.inj h).1

theorem delimited_stringExpr (text : String) : Delimited stringExpr text :=
  (delimited_group .paren fun _ heq => textLiteral_inj (List.cons.inj heq).1).prepend _

theorem delimited_boolExpr (b : Bool) : Delimited boolExpr b := by
  refine delimited_token fun b' heq => ?_
  have hname := Token.name_inj heq
  cases b <;> cases b' <;> first | rfl | exact absurd hname (by decide)

/-- A path tells its last name. -/
theorem delimited_path (root : Tokens) (segments : List String) (name : String) :
    Delimited (fun n => path root (segments ++ [n])) name := by
  have hpath : (fun n => path root (segments ++ [n])) =
      fun n => (path root segments ++ operator "::") ++ [Token.name n] := by
    funext n
    simp [path]
  rw [hpath]
  exact (delimited_token fun _ => Token.name_inj).prepend _

theorem delimited_variant (lib : Tokens) (enumeration name : String) :
    Delimited (variant lib enumeration) name :=
  delimited_path lib ["schema", enumeration] name

/-! ### Optional values and lists -/

theorem Delimited.optional {o : Option α} (h : ∀ a ∈ o, Delimited expr a) :
    Delimited (fun o => optionExpr (o.map expr)) o := by
  -- the variant is the last part of the path, so it tells which of the two it is
  have hnames : ∀ {m n : String} {r s : Tokens},
      stdPath ["option", "Option", m] ++ r = stdPath ["option", "Option", n] ++ s →
        m = n ∧ r = s :=
    fun h => delimited_path [] ["std", "option", "Option"] _ _ _ _ h
  intro o' r s heq
  dsimp only at heq
  cases o with
  | none =>
    cases o' with
    | none => exact ⟨rfl, (hnames heq).2⟩
    | some b =>
      rw [Option.map_some, Option.map_none, optionExpr, optionExpr, List.append_assoc] at heq
      exact absurd (hnames heq).1 (by decide)
  | some a =>
    cases o' with
    | none =>
      rw [Option.map_some, Option.map_none, optionExpr, optionExpr, List.append_assoc] at heq
      exact absurd (hnames heq).1 (by decide)
    | some b =>
      rw [Option.map_some, Option.map_some, optionExpr, optionExpr, List.append_assoc,
        List.append_assoc] at heq
      obtain ⟨hvalue, hrest⟩ :=
        delimited_group .paren (fun _ => (h a rfl).inj) b r s (hnames heq).2
      exact ⟨congrArg some hvalue, hrest⟩

/-- What follows an element of a list. -/
def commaTail : List Tokens → Tokens
  | [] => []
  | ts :: rest => Token.mark ',' :: commaSeparated (ts :: rest)

theorem commaSeparated_cons (ts : Tokens) (rest : List Tokens) :
    commaSeparated (ts :: rest) = ts ++ commaTail rest := by
  cases rest with
  | nil => exact (List.append_nil ts).symm
  | cons _ _ => rfl

theorem commaTail_inj {rest rest' : List Tokens} (h : commaTail rest = commaTail rest') :
    commaSeparated rest = commaSeparated rest' := by
  cases rest with
  | nil =>
    cases rest' with
    | nil => rfl
    | cons _ _ => cases h
  | cons _ _ =>
    cases rest' with
    | nil => cases h
    | cons _ _ => exact (List.cons.inj h).2

/-- The first element between commas is told apart, and so are the others. -/
theorem Delimited.element (ha : Delimited expr a) {rest rest' : List Tokens}
    (h : commaSeparated (expr a :: rest) = commaSeparated (expr b :: rest')) :
    a = b ∧ commaSeparated rest = commaSeparated rest' := by
  rw [commaSeparated_cons, commaSeparated_cons] at h
  exact (ha b _ _ h).imp_right commaTail_inj

/-- Elements between commas are told apart, if none of them is empty. -/
theorem commaSeparated_map_inj (hne : ∀ a, expr a ≠ []) {xs ys : List α}
    (hxs : ∀ a ∈ xs, Delimited expr a)
    (h : commaSeparated (xs.map expr) = commaSeparated (ys.map expr)) : xs = ys := by
  have hcons : ∀ a rest, commaSeparated (expr a :: rest) ≠ [] := fun a rest hnil => by
    rw [commaSeparated_cons] at hnil
    exact hne a (List.append_eq_nil_iff.mp hnil).1
  -- on the elements: the first of them ends where the comma says so
  induction xs generalizing ys with
  | nil =>
    cases ys with
    | nil => rfl
    | cons b ys => exact absurd h.symm (hcons b _)
  | cons a xs ih =>
    obtain ⟨ha, hrest⟩ := List.forall_mem_cons.mp hxs
    cases ys with
    | nil => exact absurd h (hcons a _)
    | cons b ys =>
      obtain ⟨rfl, htail⟩ := ha.element h
      rw [ih hrest htail]

theorem Delimited.list (hne : ∀ a, expr a ≠ []) {l : List α}
    (hl : ∀ a ∈ l, Delimited expr a) : Delimited (fun l => vecExpr (l.map expr)) l := by
  have hvec : (fun l : List α => vecExpr (l.map expr)) =
      fun l : List α => (stdPath ["vec"] ++ [Token.mark '!']) ++
        [.group .bracket (commaSeparated (l.map expr))] := by
    funext l
    rw [vecExpr, List.append_assoc]
    rfl
  rw [hvec]
  exact (delimited_group .bracket fun _ => commaSeparated_map_inj hne hl).prepend _

end Delimited

/-! ### Structures -/

/-- A field of a structure. -/
def fieldTokens (field : String × Tokens) : Tokens :=
  Token.name field.1 :: Token.mark ':' :: field.2

/-- The fields of a structure, each followed by a comma. -/
def structTokens (fields : List (String × Tokens)) : Tokens :=
  fields.flatMap fun f => fieldTokens f ++ [Token.mark ',']

section Structures

variable {α : Type} {expr : α → Tokens} {a b : α} {name : Tokens} {n : String}
  {fields fields' : List (String × Tokens)} {r s : Tokens}

theorem structExpr_append_inj (h : structExpr name fields ++ r = structExpr name fields' ++ s) :
    structTokens fields = structTokens fields' ∧ r = s := by
  rw [structExpr, structExpr, List.append_assoc, List.append_assoc] at h
  obtain ⟨hgroup, hrest⟩ := List.cons.inj (List.append_cancel_left h)
  exact ⟨(Token.group.inj hgroup).2, hrest⟩

theorem inlineStruct_append_inj
    (h : inlineStruct name fields ++ r = inlineStruct name fields' ++ s) :
    commaSeparated (fields.map fieldTokens) = commaSeparated (fields'.map fieldTokens) ∧ r = s := by
  rw [inlineStruct, inlineStruct, List.append_assoc, List.append_assoc] at h
  obtain ⟨hgroup, hrest⟩ := List.cons.inj (List.append_cancel_left h)
  exact ⟨(Token.group.inj hgroup).2, hrest⟩

theorem Delimited.named (ha : Delimited expr a) (n : String) :
    Delimited (fun x => fieldTokens (n, expr x)) a :=
  ha.prepend [Token.name n, Token.mark ':']

/-- The first field of a structure is told apart, and so are the others. -/
theorem Delimited.structField (ha : Delimited expr a)
    (h : structTokens ((n, expr a) :: fields) = structTokens ((n, expr b) :: fields')) :
    a = b ∧ structTokens fields = structTokens fields' := by
  rw [structTokens, List.flatMap_cons] at h
  exact ((ha.named n).append [Token.mark ',']) b _ _ h

theorem Delimited.inlineField (ha : Delimited expr a)
    (h : commaSeparated (((n, expr a) :: fields).map fieldTokens) =
      commaSeparated (((n, expr b) :: fields').map fieldTokens)) :
    a = b ∧ commaSeparated (fields.map fieldTokens) =
      commaSeparated (fields'.map fieldTokens) :=
  (ha.named n).element h

end Structures

/-! ### Parts of a schema -/

variable (lib : Tokens)

theorem delimited_namingVariant (n : Naming) :
    Delimited (fun n => variant lib "NamingStrategy" (namingVariant n)) n := by
  refine (delimited_variant lib _ _).comp fun n' h => ?_
  cases n <;> cases n' <;> first | rfl | exact absurd h (by decide)

theorem delimited_memberKind (k : MemberKind) :
    Delimited (fun k => variant lib "MemberKind" k.name) k := by
  refine (delimited_variant lib _ _).comp fun k' h => ?_
  cases k <;> cases k' <;> first | rfl | exact absurd h (by decide)

theorem delimited_collectionKind (k : CollectionKind) :
    Delimited (fun k => variant lib "CollectionKind" k.name) k := by
  have hmem : ∀ k : CollectionKind, k ∈ CollectionKind.all := by
    intro k
    cases k <;> decide
  have hnames : ∀ k ∈ CollectionKind.all, ∀ k' ∈ CollectionKind.all, k.name = k'.name → k = k' := by
    decide
  exact (delimited_variant lib _ _).comp fun k' h => hnames k (hmem k) k' (hmem k') h

theorem delimited_converterExpr (c : ConverterSpec) : Delimited (converterExpr lib) c := by
  intro c' r s h
  obtain ⟨h, hrest⟩ := inlineStruct_append_inj h
  obtain ⟨hpath, h⟩ := (delimited_stringExpr _).inlineField h
  obtain ⟨hinput, h⟩ := (delimited_stringExpr _).inlineField h
  obtain ⟨houtput, -⟩ := (delimited_stringExpr _).inlineField h
  cases c
  cases c'
  cases hpath
  cases hinput
  cases houtput
  exact ⟨rfl, hrest⟩

theorem delimited_relationExpr (v : VerticalRelation) : Delimited (relationExpr lib) v := by
  intro v' r s h
  obtain ⟨h, hrest⟩ := inlineStruct_append_inj h
  obtain ⟨htarget, h⟩ := (delimited_stringExpr _).inlineField h
  obtain ⟨hproperty, -⟩ := (delimited_stringExpr _).inlineField h
  cases v
  cases v'
  cases htarget
  cases hproperty
  exact ⟨rfl, hrest⟩

/-! ### Meanings -/

/-- The name of the variant of a meaning. -/
def meaningVariant : SemanticType → String
  | .bool => "Bool"
  | .int => "Int"
  | .float => "Float"
  | .text => "Str"
  | .assetRef => "AssetRef"
  | .sheetRef _ => "SheetRef"
  | .record _ => "Record"
  | .other _ => "Other"

/-- What follows the variant of a meaning. -/
def meaningFields : SemanticType → Tokens
  | .bool | .int | .float | .text | .assetRef => []
  | .sheetRef target => inlineStruct [] [("target", stringExpr target)]
  | .record name => inlineStruct [] [("name", stringExpr name)]
  | .other name => inlineStruct [] [("name", stringExpr name)]

theorem semanticExpr_eq (m : SemanticType) :
    semanticExpr lib m = variant lib "SemanticType" (meaningVariant m) ++ meaningFields m := by
  cases m <;> first | rfl | exact (List.append_nil _).symm

theorem delimited_inlineText (n text : String) :
    Delimited (fun text => inlineStruct [] [(n, stringExpr text)]) text := by
  intro text' r s h
  obtain ⟨h, hrest⟩ := inlineStruct_append_inj h
  exact ⟨((delimited_stringExpr text).inlineField h).1, hrest⟩

theorem delimited_semanticExpr (m : SemanticType) : Delimited (semanticExpr lib) m := by
  intro m' r s h
  rw [semanticExpr_eq, semanticExpr_eq, List.append_assoc, List.append_assoc] at h
  obtain ⟨hvariant, h⟩ := delimited_variant lib _ _ _ _ _ h
  -- meanings with the same variant have the same fields, which have the same text
  cases m <;> cases m' <;> first
    | exact ⟨rfl, h⟩
    | exact (delimited_inlineText _ _ _ _ _ h).imp_left (congrArg _)
    | exact absurd hvariant (by simp [meaningVariant])

/-! ### Descriptors -/

theorem structExpr_ne_nil (name : Tokens) (fields : List (String × Tokens)) :
    structExpr name fields ≠ [] :=
  List.append_ne_nil_of_right_ne_nil _ (List.cons_ne_nil _ _)

theorem inlineStruct_ne_nil (name : Tokens) (fields : List (String × Tokens)) :
    inlineStruct name fields ≠ [] :=
  List.append_ne_nil_of_right_ne_nil _ (List.cons_ne_nil _ _)

theorem fieldExpr_ne_nil (f : FieldDescriptor) : fieldExpr lib f ≠ [] := by
  cases f
  rw [fieldExpr]
  exact structExpr_ne_nil _ _

theorem delimited_boxed {o : Option FieldDescriptor} (h : ∀ f ∈ o, Delimited (fieldExpr lib) f) :
    Delimited (fun o => optionExpr (boxedField lib o)) o := by
  have hboxed : (fun o => optionExpr (boxedField lib o)) =
      fun o => optionExpr (o.map fun f => boxExpr (fieldExpr lib f)) := by
    funext o
    cases o <;> rw [boxedField] <;> rfl
  rw [hboxed]
  exact Delimited.optional fun f hf => (delimited_group .paren fun _ => (h f hf).inj).prepend _

mutual

/-- A descriptor is told apart by its expression, with those of its keys and elements in it. -/
theorem delimited_fieldExpr : (f : FieldDescriptor) → Delimited (fieldExpr lib) f
  | .mk declaredName propertyName declaredType semantic kind wireName isMutable isId isVertical
      memberKind converter key element => by
    intro f' r s h
    cases f' with
    | mk _ _ _ _ _ _ _ _ _ _ _ _ _ =>
    -- the expressions are equal field by field, from the front
    rw [fieldExpr, fieldExpr] at h
    obtain ⟨h, hrest⟩ := structExpr_append_inj h
    obtain ⟨hdeclared, h⟩ := (delimited_stringExpr declaredName).structField h
    obtain ⟨hproperty, h⟩ := (delimited_stringExpr propertyName).structField h
    obtain ⟨htype, h⟩ := (delimited_stringExpr declaredType).structField h
    obtain ⟨hsemantic, h⟩ := (delimited_semanticExpr lib semantic).structField h
    obtain ⟨hkind, h⟩ := (delimited_collectionKind lib kind).structField h
    obtain ⟨hwire, h⟩ := (delimited_stringExpr wireName).structField h
    obtain ⟨hmutable, h⟩ := (delimited_boolExpr isMutable).structField h
    obtain ⟨hid, h⟩ := (delimited_boolExpr isId).structField h
    obtain ⟨hvertical, h⟩ := (delimited_boolExpr isVertical).structField h
    obtain ⟨hmember, h⟩ := (delimited_memberKind lib memberKind).structField h
    obtain ⟨hconverter, h⟩ :=
      (Delimited.optional (o := converter) fun c _ => delimited_converterExpr lib c).structField h
    obtain ⟨hkey, h⟩ := (delimited_boxedField key).structField h
    obtain ⟨helement, -⟩ := (delimited_boxedField element).structField h
    subst hdeclared hproperty htype hsemantic hkind hwire hmutable hid hvertical hmember hconverter
      hkey helement
    exact ⟨rfl, hrest⟩

theorem delimited_boxedField : (o : Option FieldDescriptor) →
    Delimited (fun o => optionExpr (boxedField lib o)) o
  | none => delimited_boxed lib (by simp)
  | some f => delimited_boxed lib (by
      intro f' hf'
      cases hf'
      exact delimited_fieldExpr f)

end

/-! ### Schemas -/

/-- A schema is told apart by its expression. -/
theorem delimited_schemaExpr (schema : RecordSchema) : Delimited (schemaExpr lib) schema := by
  intro schema' r s h
  have htext : ∀ text : String, stringExpr text ≠ [] := fun text =>
    List.append_ne_nil_of_right_ne_nil _ (List.cons_ne_nil _ _)
  have htexts : ∀ texts : List String,
      Delimited (fun texts : List String => vecExpr (texts.map stringExpr)) texts :=
    fun texts => Delimited.list htext fun text _ => delimited_stringExpr text
  have hoptional : ∀ o : Option String,
      Delimited (fun o : Option String => optionExpr (o.map stringExpr)) o :=
    fun o => Delimited.optional fun text _ => delimited_stringExpr text
  -- the expressions are equal field by field, from the front
  rw [schemaExpr, schemaExpr] at h
  obtain ⟨h, hrest⟩ := structExpr_append_inj h
  obtain ⟨hname, h⟩ := (delimited_stringExpr schema.name).structField h
  obtain ⟨hfields, h⟩ := (Delimited.list (l := schema.fields) (fieldExpr_ne_nil lib)
    fun f _ => delimited_fieldExpr lib f).structField h
  obtain ⟨hnaming, h⟩ := (Delimited.optional (o := schema.naming)
    fun n _ => delimited_namingVariant lib n).structField h
  obtain ⟨hmutable, h⟩ := (delimited_boolExpr schema.isMutable).structField h
  obtain ⟨htable, h⟩ := (delimited_boolExpr schema.isTable).structField h
  obtain ⟨hid, h⟩ := (hoptional schema.idField).structField h
  obtain ⟨hvertical, h⟩ := (Delimited.list (l := schema.vertical)
    (fun _ => inlineStruct_ne_nil _ _) fun v _ => delimited_relationExpr lib v).structField h
  obtain ⟨hclosed, h⟩ := (hoptional schema.closedReason).structField h
  obtain ⟨himpls, h⟩ := (htexts schema.userImpls).structField h
  obtain ⟨hignored, -⟩ := (htexts schema.ignored).structField h
  cases schema
  cases schema'
  dsimp only at hname hfields hnaming hmutable htable hid hvertical hclosed himpls hignored
  subst hname hfields hnaming hmutable htable hid hvertical hclosed himpls hignored
  exact ⟨rfl, hrest⟩

/-- Schemas have the same expression if and only if they are the same. -/
theorem schemaExpr_inj {s t : RecordSchema} : schemaExpr lib s = schemaExpr lib t ↔ s = t :=
  ⟨(delimited_schemaExpr lib s).inj, fun h => congrArg _ h⟩

end TypedSheets.Code
