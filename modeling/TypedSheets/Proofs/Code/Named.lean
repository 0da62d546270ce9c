import TypedSheets.Code.Grammar
import TypedSheets.Proofs.Code.Lexing

/-!
# Names in types that are read

Whatever tokens with valid names a type is read from, the paths in its shape are made of names, and
what is left has valid names again. Each reader is taken through once; the rules one level further
down are all that a rule relies on.

## Main definitions

* `Reader.Gives` — what a reader gives from valid tokens, of which it leaves valid ones
* `nameToken`, `IsSegmentName` — the token of a segment as it is written
* `TypeShape.Named` — a shape whose paths are made of names
* `Rules.Tame` — the rules for types give such shapes

## Main results

* `tame_rules` — the rules do so at every level
* `TypeShape.named_of_parse?` — the shape of every type that was read is made of names
-/

namespace TypedSheets

namespace Code

/-! ### Readers of valid tokens -/

namespace Reader

/-- From tokens with valid names a reader gives what has a property, and it leaves such tokens. -/
def Gives {α : Type} (P : α → Prop) (read : Reader α) : Prop :=
  ∀ ts x rest, Tokens.Valid ts → read.run ts = some (x, rest) → P x ∧ Tokens.Valid rest

/-- A reader leaves tokens with valid names, whatever it gives. -/
abbrev Passes {α : Type} (read : Reader α) : Prop := Gives (fun _ => True) read

variable {α β : Type} {P : α → Prop} {Q : β → Prop}

theorem Gives.pure {x : α} (hx : P x) : Gives P (Pure.pure x : Reader α) := by
  intro ts y rest hts h
  cases h
  exact ⟨hx, hts⟩

theorem Gives.bind {read : Reader α} {next : α → Reader β} (h : Gives P read)
    (hnext : ∀ x, P x → Gives Q (next x)) : Gives Q (read >>= next) := by
  intro ts y rest hts hrun
  rw [StateT.run_bind] at hrun
  obtain ⟨⟨x, middle⟩, hx, hy⟩ := Option.bind_eq_some_iff.mp hrun
  obtain ⟨hP, hmiddle⟩ := h ts x middle hts hx
  exact hnext x hP middle y rest hmiddle hy

theorem Gives.map {f : α → β} {read : Reader α} (h : Gives P read) (hf : ∀ x, P x → Q (f x)) :
    Gives Q (f <$> read) := by
  intro ts y behind hts hrun
  rw [StateT.run_map] at hrun
  obtain ⟨⟨x, _⟩, hx, heq⟩ := Option.map_eq_some_iff.mp hrun
  cases heq
  exact (h ts x _ hts hx).imp_left (hf x)

theorem Gives.failure : Gives P (Alternative.failure : Reader α) := by
  intro ts x rest _ h
  cases h

theorem Gives.mono {P' : α → Prop} {read : Reader α} (h : Gives P read) (himp : ∀ x, P x → P' x) :
    Gives P' read := fun ts x rest hts hrun =>
  (h ts x rest hts hrun).imp_left (himp x)

theorem Gives.passes {read : Reader α} (h : Gives P read) : Passes read := h.mono fun _ _ => trivial

theorem Gives.ite {c : Prop} [Decidable c] {read other : Reader α} (h : Gives P read)
    (hother : Gives P other) : Gives P (if c then read else other) := by
  split
  · exact h
  · exact hother

theorem gives_get : Gives Tokens.Valid (get : Reader Tokens) := by
  intro ts x rest hts h
  cases h
  exact ⟨hts, hts⟩

theorem passes_set {ts : Tokens} (h : ts.Valid) : Passes (set ts : Reader PUnit) := by
  intro _ x rest _ hrun
  cases hrun
  exact ⟨trivial, h⟩

/-- Whatever tokens it is given, a reader gives what has a property. -/
def Always (P : α → Prop) (read : Reader α) : Prop :=
  ∀ ts x rest, read.run ts = some (x, rest) → P x

theorem Always.pure {x : α} (hx : P x) : Always P (Pure.pure x : Reader α) := by
  intro ts y rest h
  cases h
  exact hx

theorem Always.bind {read : Reader β} {next : β → Reader α} (h : ∀ x, Always P (next x)) :
    Always P (read >>= next) := by
  intro ts y rest hrun
  rw [StateT.run_bind] at hrun
  obtain ⟨⟨x, middle⟩, -, hy⟩ := Option.bind_eq_some_iff.mp hrun
  exact h x middle y rest hy

theorem Always.ite {c : Prop} [Decidable c] {read other : Reader α} (h : Always P read)
    (hother : Always P other) : Always P (if c then read else other) := by
  split
  · exact h
  · exact hother

/-- A look at the tokens leaves them. -/
theorem passes_sees (p : Tokens → Bool) : Passes (sees p) :=
  gives_get.bind fun _ _ => .pure trivial

/-- What is read whether the tokens look so or not. -/
theorem Gives.sees {p : Tokens → Bool} {read other : Reader α} (h : Gives P read)
    (hother : Gives P other) :
    Gives P (Reader.sees p >>= fun b => if b = true then read else other) :=
  (passes_sees p).bind fun _ _ => h.ite hother

theorem gives_token (p : Token → Bool) : Gives (fun t => t.Valid ∧ p t = true) (token p) := by
  refine gives_get.bind fun ts hts => ?_
  cases ts with
  | nil => exact .failure
  | cons t rest =>
    obtain ⟨ht, hrest⟩ := List.forall_mem_cons.mp hts
    dsimp only
    split
    · next hp => exact (passes_set hrest).bind fun _ _ => .pure ⟨ht, hp⟩
    · exact .failure

theorem passes_op (s : String) : Passes (op s) :=
  gives_get.bind fun _ hts => .ite
    ((passes_set fun t ht => hts t (List.mem_of_mem_drop ht)).bind fun _ _ => .pure trivial)
    .failure

theorem passes_word (s : String) : Passes (word s) := (gives_token _).bind fun _ _ => .pure trivial

theorem passes_name : Passes name := (gives_token _).bind fun _ _ => .pure trivial

theorem passes_lifetime : Passes lifetime := (gives_token _).bind fun _ _ => .pure trivial

theorem passes_anyGroup : Passes anyGroup := (gives_token _).bind fun _ _ => .pure trivial

theorem passes_signedLiteral : Passes signedLiteral :=
  .sees ((passes_op _).bind fun _ _ => (gives_token _).bind fun _ _ => .pure trivial)
    ((gives_token _).bind fun _ _ => .pure trivial)

theorem passes_whenSees {p : Tokens → Bool} {read : Reader Tokens} (h : Passes read) :
    Passes (whenSees p read) :=
  .sees h (.pure trivial)

theorem passes_optionalOp (s : String) : Passes (optionalOp s) := passes_whenSees (passes_op s)

theorem passes_optionalWord (s : String) : Passes (optionalWord s) :=
  passes_whenSees (passes_word s)

/-- What is read in a group. Nothing of the group is left, so it does not matter what the reader
leaves. -/
theorem inGroup_cases {d : Delimiter} {read : Reader α} {ts rest : Tokens} {x : α}
    (h : (inGroup d read).run ts = some (x, rest)) :
    ∃ inner, ts = .group d inner :: rest ∧ read.run inner = some (x, []) := by
  cases ts with
  | nil => cases h
  | cons t behind =>
    cases t with
    | group d' inner =>
      rw [Reader.inGroup, StateT.run_bind, StateT.run_get, pure_bind] at h
      dsimp only at h
      split at h
      · next hd hread =>
        cases h
        exact ⟨inner, by rw [of_decide_eq_true hd], hread⟩
      · cases h
    | ident _ _ | lifetime _ | punct _ _ | literal _ => cases h

theorem Gives.inGroup {d : Delimiter} {read : Reader α} (h : Gives P read) :
    Gives P (inGroup d read) := by
  intro ts x rest hts hrun
  obtain ⟨inner, rfl, hinner⟩ := inGroup_cases hrun
  obtain ⟨hgroup, hrest⟩ := List.forall_mem_cons.mp hts
  cases hgroup with
  | group _ hinner' => exact ⟨(h inner x [] hinner' hinner).1, hrest⟩

theorem passes_inGroup (d : Delimiter) (read : Reader α) : Passes (inGroup d read) := by
  intro ts x rest hts hrun
  obtain ⟨inner, rfl, -⟩ := inGroup_cases hrun
  exact ⟨trivial, (List.forall_mem_cons.mp hts).2⟩

theorem passes_grouped (d : Delimiter) (read : Reader Tokens) : Passes (grouped d read) :=
  (passes_inGroup d read).bind fun _ _ => .pure trivial

theorem passes_since (start : Tokens) : Passes (since start) :=
  gives_get.bind fun _ _ => .pure trivial

theorem Gives.iterate {step : α → Reader (Option α)}
    (h : ∀ a, P a → Gives (fun o => ∀ b ∈ o, P b) (step a)) {a : α} (ha : P a) :
    Gives P (iterate step a) := by
  refine gives_get.bind fun ts _ => ?_
  generalize ts.length + 1 = fuel
  induction fuel generalizing a with
  | zero => exact .failure
  | succ fuel ih =>
    refine (h a ha).bind fun o ho => ?_
    cases o with
    | none => exact .pure ha
    | some b => exact ih (ho b rfl)

theorem passes_whileSees {p : Tokens → Bool} {read : Reader Tokens} (h : Passes read) :
    Passes (whileSees p read) := by
  refine Gives.iterate (P := fun _ => True) (fun _ _ => ?_) trivial
  exact .sees (h.bind fun _ _ => .pure fun _ _ => trivial) (.pure fun _ _ => trivial)

theorem Gives.separated {mark : String} {isStop : Tokens → Bool} {read : Reader α}
    (h : Gives P read) : Gives (fun xs => ∀ x ∈ xs, P x.1) (separated mark isStop read) := by
  refine gives_get.bind fun ts _ => ?_
  generalize ts.length + 1 = fuel
  induction fuel with
  | zero => exact .failure
  | succ fuel ih =>
    refine .sees (.pure fun x hx => absurd hx List.not_mem_nil) (h.bind fun x hx => ?_)
    refine .sees (.pure (List.forall_mem_singleton.mpr hx)) ((passes_op mark).bind fun _ _ => ?_)
    exact ih.bind fun xs hxs => .pure (List.forall_mem_cons.mpr ⟨hx, hxs⟩)

theorem Gives.joined {mark : String} {isStop : Tokens → Bool} {read : Reader α}
    (h : Gives P read) : Gives (fun xs => ∀ x ∈ xs, P x.1) (joined mark isStop read) := by
  refine gives_get.bind fun ts _ => ?_
  generalize ts.length + 1 = fuel
  induction fuel with
  | zero => exact .failure
  | succ fuel ih =>
    refine .sees (.pure fun x hx => absurd hx List.not_mem_nil) (h.bind fun x hx => ?_)
    refine .sees ((passes_op mark).bind fun _ _ => ?_) (.pure (List.forall_mem_singleton.mpr hx))
    exact ih.bind fun xs hxs => .pure (List.forall_mem_cons.mpr ⟨hx, hxs⟩)

end Reader

/-! ### Names in shapes -/

/-- The token of a segment as it is written. -/
def nameToken (s : String) : Token :=
  if "r#".toList.isPrefixOf s.toList then .ident (String.ofList (s.toList.drop 2)) true
  else .ident s false

/-- A text that is a segment of a path. -/
structure IsSegmentName (s : String) : Prop where
  valid : (nameToken s).Valid
  isSegment : isSegment (nameToken s) = true
  text : (nameToken s).text = s

theorem exists_ident_of_isSegment {t : Token} (h : isSegment t = true) :
    ∃ n raw, t = .ident n raw := by
  cases t with
  | ident n raw => exact ⟨n, raw, rfl⟩
  | lifetime _ | punct _ _ | literal _ | group _ _ => cases h

theorem nameToken_identText {n : String} {raw : Bool} (h : Token.ValidName n raw) :
    nameToken (Token.identText n raw) = .ident n raw := by
  cases raw with
  | true =>
    have htext : (Token.identText n true).toList = 'r' :: '#' :: n.toList := by
      rw [Token.identText, if_pos rfl, String.toList_append]
      rfl
    have hraw : "r#".toList.isPrefixOf ('r' :: '#' :: n.toList) = true := rfl
    rw [nameToken, htext, if_pos hraw]
    simp
  | false =>
    -- a name has no number sign in it, so it is not taken for a raw one
    have hhash : ¬ "r#".toList.isPrefixOf n.toList = true := fun hstart => by
      obtain ⟨behind, hbehind⟩ := List.isPrefixOf_iff_prefix.mp hstart
      have hid := h.isIdentifier
      rw [isIdentifier, ← hbehind] at hid
      simp at hid
      exact absurd hid.2.1 (by decide)
    rw [nameToken, Token.identText, if_neg Bool.false_ne_true, if_neg hhash]

/-- The text of a valid segment is a segment, and its token is had again. -/
theorem isSegmentName_text {t : Token} (ht : t.Valid) (h : isSegment t = true) :
    IsSegmentName t.text ∧ nameToken t.text = t := by
  obtain ⟨n, raw, rfl⟩ := exists_ident_of_isSegment h
  cases ht with
  | ident hn =>
    have htoken : nameToken (Token.ident n raw).text = .ident n raw := by
      rw [Token.text, nameToken_identText hn]
    exact ⟨⟨by rw [htoken]; exact .ident hn, by rw [htoken]; exact h, by rw [htoken]⟩, htoken⟩

end Code

open Code (nameToken IsSegmentName isPlaceWord)

/-- The paths in a shape are made of names; only a name that takes arguments has some. -/
inductive TypeShape.Named : TypeShape → Prop
  | path {segments : List String} {args : List TypeShape} (hne : segments ≠ [])
      (hsegments : ∀ s ∈ segments, IsSegmentName s)
      (hlast : args ≠ [] → ∀ s ∈ segments.getLast?, isPlaceWord (nameToken s) = false)
      (hargs : ∀ a ∈ args, Named a) : Named (.path segments args)
  | array {elem : TypeShape} (length : String) (h : Named elem) : Named (.array elem length)
  | slice {elem : TypeShape} (h : Named elem) : Named (.slice elem)
  | reference (isMutable : Bool) {inner : TypeShape} (h : Named inner) :
      Named (.reference isMutable inner)
  | tuple {elems : List TypeShape} (h : ∀ e ∈ elems, Named e) : Named (.tuple elems)
  | other (text : String) : Named (.other text)

namespace Code

open Reader

/-- A path of names. -/
structure PathSyntax.Named (p : PathSyntax) : Prop where
  ne : p.segments ≠ []
  segments : ∀ s ∈ p.segments, IsSegmentName s
  last : p.last.types ≠ [] → ∀ s ∈ p.segments.getLast?, isPlaceWord (nameToken s) = false
  types : ∀ t ∈ p.last.types, t.Named

/-- A segment with its arguments. -/
structure SegmentNamed (x : Token × ArgsSyntax) : Prop where
  valid : x.1.Valid
  isSegment : isSegment x.1 = true
  last : x.2.types ≠ [] → isPlaceWord x.1 = false
  types : ∀ t ∈ x.2.types, t.Named

theorem PathSyntax.Named.push {p : PathSyntax} {colons : Tokens} {x : Token × ArgsSyntax}
    (hp : p.Named) (hx : SegmentNamed x) : (p.push colons x.1 x.2).Named := by
  obtain ⟨hname, htoken⟩ := isSegmentName_text hx.valid hx.isSegment
  refine ⟨by simp [PathSyntax.push], ?_, fun htypes s hs => ?_, hx.types⟩
  · exact List.forall_mem_append.mpr ⟨hp.segments, List.forall_mem_singleton.mpr hname⟩
  · rw [PathSyntax.push, List.getLast?_concat] at hs
    obtain rfl := Option.some.inj hs
    rw [htoken]
    exact hx.last htypes

theorem PathSyntax.named_single {leading isPlain : Bool} {stem : Tokens} {x : Token × ArgsSyntax}
    (hx : SegmentNamed x) :
    PathSyntax.Named ⟨leading, false, [x.1.text], isPlain, stem, x.2⟩ := by
  obtain ⟨hname, htoken⟩ := isSegmentName_text hx.valid hx.isSegment
  refine ⟨List.cons_ne_nil _ _, List.forall_mem_singleton.mpr hname, fun htypes s hs => ?_,
    hx.types⟩
  have hs : s = x.1.text := (Option.some.inj hs).symm
  rw [hs, htoken]
  exact hx.last htypes

namespace Rules

/-- The rules for types give shapes of names. -/
structure Tame (g : Rules) : Prop where
  type : ∀ allowPlus, Gives (fun t => t.shape.Named) (g.type allowPlus)
  bound : ∀ place, Passes (g.bound place)

variable {g : Rules} (hg : g.Tame)

include hg

/-! ### Paths -/

omit hg in
theorem passes_constArg : Passes g.constArg :=
  .sees passes_signedLiteral (passes_grouped _ _)

theorem passes_argBounds : Passes g.argBounds :=
  (Gives.joined (P := fun _ => True) ((hg.bound _).bind fun _ _ => .pure trivial)).bind
    fun _ _ => .pure trivial

theorem gives_genericArg : Gives (fun a => ∀ t ∈ a.type, t.Named) g.genericArg := by
  refine .sees (passes_lifetime.bind fun _ _ => .pure (by simp)) ?_
  refine .sees (passes_constArg.bind fun _ _ => .pure (by simp)) ?_
  refine (hg.type true).bind fun t ht => ?_
  refine (passes_sees _).bind fun _ _ => .ite ?_ ?_
  · refine (passes_op _).bind fun _ _ => ?_
    refine .sees (passes_constArg.bind fun _ _ => .pure (by simp)) ?_
    exact ((hg.type true).map (Q := fun _ => True) fun _ _ => trivial).bind
      fun _ _ => .pure (by simp)
  · refine (passes_sees _).bind fun _ _ => .ite ?_ (.pure (by simpa using ht))
    exact (passes_op _).bind fun _ _ => (passes_argBounds hg).bind fun _ _ => .pure (by simp)

theorem gives_angleArgs : Gives (fun a => ∀ t ∈ a.types, t.Named) g.angleArgs := by
  refine (passes_optionalOp _).bind fun _ _ => (passes_op _).bind fun _ _ => ?_
  refine (gives_genericArg hg).separated.bind fun args hargs => ?_
  refine (passes_op _).bind fun _ _ => .pure fun t ht => ?_
  obtain ⟨a, ha, htype⟩ := List.mem_filterMap.mp ht
  exact hargs a ha t htype

theorem passes_result (allowPlus : Bool) : Passes (g.result allowPlus) :=
  passes_whenSees ((passes_op _).bind fun _ _ => (hg.type _).bind fun _ _ => .pure trivial)

theorem passes_parenArgs : Passes g.parenArgs :=
  (passes_optionalOp _).bind fun _ _ => (passes_grouped _ _).bind fun _ _ =>
    (passes_result hg _).bind fun _ _ => .pure trivial

theorem gives_segment (inExpr : Bool) : Gives SegmentNamed (g.segment inExpr) := by
  refine (gives_token _).bind fun t ht => (passes_sees _).bind fun b _ => ?_
  split
  · next hargs =>
    refine (gives_angleArgs hg).bind fun args hnamed => .pure ⟨ht.1, ht.2, fun _ => ?_, hnamed⟩
    simpa using (Bool.and_eq_true_iff.mp hargs).1
  · exact .pure ⟨ht.1, ht.2, fun h => absurd rfl h, fun t ht => absurd ht List.not_mem_nil⟩

theorem gives_path (inExpr : Bool) : Gives PathSyntax.Named (g.path inExpr) := by
  refine (passes_optionalOp _).bind fun _ _ => (gives_segment hg inExpr).bind fun x hx => ?_
  refine Gives.iterate (fun p hp => ?_) (PathSyntax.named_single hx)
  refine .sees ?_ (.pure fun _ h => absurd h (Option.not_mem_none _))
  refine (passes_op _).bind fun _ _ => (gives_segment hg inExpr).bind fun y hy =>
    .pure fun q hq => ?_
  obtain rfl := Option.some.inj hq
  exact hp.push hy

theorem gives_qualifiedPath (inExpr : Bool) :
    Gives (fun p => p.isQualified = true) (g.qualifiedPath inExpr) := by
  refine (passes_op _).bind fun _ _ => (hg.type _).bind fun _ _ => ?_
  refine (passes_whenSees ?_).bind fun _ _ => ?_
  · exact (passes_word _).bind fun _ _ => (gives_path hg _).bind fun _ _ => .pure trivial
  · refine (passes_op _).bind fun _ _ => (passes_op _).bind fun _ _ => ?_
    refine (gives_segment hg _).bind fun _ _ => Gives.iterate (fun p hp => ?_) rfl
    refine .sees ?_ (.pure fun _ h => absurd h (Option.not_mem_none _))
    refine (passes_op _).bind fun _ _ => (gives_segment hg _).bind fun _ _ => .pure fun q hq => ?_
    obtain rfl := Option.some.inj hq
    exact hp

theorem gives_anyPath (inExpr : Bool) :
    Gives (fun p => p.isQualified = true ∨ p.Named) (g.anyPath inExpr) :=
  .sees ((gives_qualifiedPath hg _).mono fun _ => .inl) ((gives_path hg _).mono fun _ => .inr)

omit hg in
theorem passes_bangGroup : Passes bangGroup :=
  (passes_op _).bind fun _ _ => passes_anyGroup.bind fun _ _ => .pure trivial

/-! ### Bounds -/

omit hg in
theorem passes_lifetimeBounds (isStop : Tokens → Bool) : Passes (lifetimeBounds isStop) :=
  (Gives.joined (P := fun _ => True) passes_lifetime).bind fun _ _ => .pure trivial

omit hg in
theorem passes_lifetimeParameter : Passes lifetimeParameter :=
  passes_lifetime.bind fun _ _ => .sees
    ((passes_op _).bind fun _ _ => (passes_lifetimeBounds _).bind fun _ _ => .pure trivial)
    (.pure trivial)

theorem passes_typeParameter : Passes g.typeParameter := by
  refine passes_name.bind fun _ _ => (passes_whenSees ?_).bind fun _ _ => ?_
  · refine (passes_op _).bind fun _ _ => ?_
    exact (Gives.joined (P := fun _ => True) ((hg.bound _).bind fun _ _ => .pure trivial)).bind
      fun _ _ => .pure trivial
  · refine (passes_whenSees ?_).bind fun _ _ => .pure trivial
    exact (passes_op _).bind fun _ _ => (hg.type _).bind fun _ _ => .pure trivial

theorem passes_constParameter : Passes g.constParameter := by
  refine (passes_word _).bind fun _ _ => passes_name.bind fun _ _ => ?_
  refine (passes_op _).bind fun _ _ => (hg.type _).bind fun _ _ => ?_
  refine (passes_whenSees ?_).bind fun _ _ => .pure trivial
  exact (passes_op _).bind fun _ _ => .sees (passes_name.bind fun _ _ => .pure trivial)
    (passes_constArg.bind fun _ _ => .pure trivial)

omit hg in
theorem passes_outer : Passes g.outer := by
  have hattributes : Passes g.attributes := by
    refine Gives.iterate (P := fun _ => True) (fun _ _ => ?_) trivial
    refine .sees (Gives.bind (P := fun _ => True) ?_ fun _ _ => .pure fun _ _ => trivial)
      (.pure fun _ _ => trivial)
    exact (passes_op _).bind fun _ _ => (passes_inGroup _ _).bind fun _ _ => .pure trivial
  exact hattributes.bind fun _ _ => .pure trivial

theorem passes_parameter (allowGap : Bool) : Passes (g.parameter allowGap) := by
  refine passes_outer.bind fun _ _ => .sees
    (passes_lifetimeParameter.bind fun _ _ => .pure trivial) ?_
  refine .sees ((passes_constParameter hg).bind fun _ _ => .pure trivial) ?_
  refine (passes_sees _).bind fun _ _ => .ite ((passes_word _).bind fun _ _ => .pure trivial) ?_
  exact (passes_typeParameter hg).bind fun _ _ => .pure trivial

theorem passes_boundLifetimes : Passes g.boundLifetimes := by
  refine (passes_word _).bind fun _ _ => (passes_op _).bind fun _ _ => ?_
  refine (Gives.separated (P := fun _ => True)
    ((passes_parameter hg _).bind fun _ _ => .pure trivial)).bind fun _ _ => ?_
  exact (passes_op _).bind fun _ _ => .pure trivial

theorem passes_optionalBoundLifetimes : Passes g.optionalBoundLifetimes :=
  passes_whenSees (passes_boundLifetimes hg)

omit hg in
theorem passes_constMark (place : BoundPlace) : Passes (constMark place) := by
  refine (passes_sees _).bind fun _ _ => .ite
    ((passes_inGroup _ _).bind fun _ _ => .pure trivial) ?_
  exact (passes_sees _).bind fun _ _ => .ite ((passes_word _).bind fun _ _ => .pure trivial)
    (.pure trivial)

theorem passes_traitBound (place : BoundPlace) : Passes (g.traitBound place) := by
  have hoptional := passes_optionalBoundLifetimes hg
  have hpath (isConst : Bool) (front : Tokens) : Passes (g.path false >>= fun p => do
      if p.last.isEmpty && (← sees startsParenArgs) then
        return (isConst, front ++ p.stem ++ (← g.parenArgs))
      else return (isConst, front ++ p.tokens)) :=
    (gives_path hg _).bind fun _ _ => (passes_sees _).bind fun _ _ =>
      .ite ((passes_parenArgs hg).bind fun _ _ => .pure trivial) (.pure trivial)
  have hbehind (isConst : Bool) (maybe lifetimes : Tokens) : Passes (do
      if !maybe.isEmpty && !lifetimes.isEmpty then failure
      let p ← g.path false
      if p.last.isEmpty && (← sees startsParenArgs) then
        return (isConst, maybe ++ lifetimes ++ p.stem ++ (← g.parenArgs))
      else return (isConst, maybe ++ lifetimes ++ p.tokens)) :=
    .ite (Gives.failure.bind (P := fun _ => True) fun _ _ => hpath isConst _) (hpath isConst _)
  -- lifetimes may stand before or behind the marks of a bound
  refine hoptional.bind fun early _ => (passes_constMark _).bind fun isConst _ => ?_
  refine (passes_optionalOp _).bind fun maybe _ => .ite ?_ ?_
  · exact (Gives.pure (P := fun _ => True) trivial).bind fun lifetimes _ =>
      hbehind isConst maybe lifetimes
  · exact hoptional.bind fun lifetimes _ => hbehind isConst maybe lifetimes

omit hg in
theorem passes_captured : Passes captured :=
  .sees (passes_lifetime.bind fun _ _ => .pure trivial)
    (.sees ((passes_word _).bind fun _ _ => .pure trivial)
      (passes_name.bind fun _ _ => .pure trivial))

omit hg in
theorem passes_capture : Passes capture := by
  refine (passes_word _).bind fun _ _ => (passes_op _).bind fun _ _ => ?_
  exact passes_captured.separated.bind fun _ _ => (passes_op _).bind fun _ _ => .pure trivial

theorem passes_nextBound (place : BoundPlace) : Passes (g.nextBound place) := by
  refine .sees (passes_lifetime.bind fun _ _ => .pure trivial) (.sees ?_ ?_)
  · exact .ite (passes_capture.bind fun _ _ => .pure trivial) .failure
  · have hwritten (isConst : Bool) (start tokens : Tokens) :
        Passes (do return (⟨true, ← if isConst then since start else pure tokens⟩ : BoundSyntax)) :=
      .ite ((passes_since _).bind fun _ _ => .pure trivial)
        ((Gives.pure (P := fun _ => True) trivial).bind fun _ _ => .pure trivial)
    refine gives_get.bind fun start _ => .sees ?_ ?_
    · exact (passes_inGroup _ _).bind fun x _ => hwritten x.1 start _
    · exact (passes_traitBound hg place).bind fun x _ => hwritten x.1 start _

theorem passes_boundList (place : BoundPlace) : Passes (g.boundList place) :=
  (hg.bound place).joined.passes

theorem passes_bounds (place : BoundPlace) (allowPlus : Bool) :
    Passes (g.bounds place allowPlus) :=
  .ite ((passes_boundList hg place).bind fun _ _ => .ite (.pure trivial) .failure)
    ((hg.bound place).bind fun _ _ => .ite (.pure trivial) .failure)

theorem passes_plusBounds : Passes g.plusBounds :=
  passes_whileSees ((passes_op _).bind fun _ _ => (hg.bound _).bind fun _ _ => .pure trivial)

/-! ### Types -/

omit hg in
theorem passes_convention : Passes convention :=
  passes_whenSees ((passes_word _).bind fun _ _ =>
    (passes_whenSees ((gives_token _).bind fun _ _ => .pure trivial)).bind fun _ _ => .pure trivial)

theorem passes_fnType : Passes g.fnType := by
  refine (passes_optionalWord _).bind fun _ _ => passes_convention.bind fun _ _ => ?_
  refine (passes_word _).bind fun _ _ => (passes_grouped _ _).bind fun _ _ => ?_
  exact (passes_result hg _).bind fun _ _ => .pure trivial

theorem gives_parenBound (inner : Tokens) :
    Gives (fun t => t.shape.Named) (g.parenBound inner) :=
  (passes_plusBounds hg).bind fun _ _ => .ite (.pure (.other _)) (.pure (.other _))

theorem gives_parenType (allowPlus : Bool) :
    Gives (fun t => t.shape.Named) (g.parenType allowPlus) := by
  refine gives_get.bind fun ts hts => ?_
  -- types in parentheses are named, be there one of them, several or none
  have helements : Gives (fun xs : List (TypeSyntax × Tokens) => ∀ x ∈ xs, x.1.shape.Named)
      (inGroup .paren (separated "," List.isEmpty (g.type true))) :=
    ((hg.type true).separated).inGroup
  split
  · next rest =>
    exact (passes_set (List.forall_mem_cons.mp hts).2).bind fun _ _ =>
      .pure (.tuple fun e he => absurd he List.not_mem_nil)
  · refine .ite ((passes_inGroup _ _).bind fun _ _ => .pure (.other _)) (.ite ?_ ?_)
    · exact (passes_inGroup _ _).bind fun _ _ => gives_parenBound hg _
    · refine helements.bind fun elements hnamed => ?_
      have htuple : (TypeShape.tuple (elements.map fun e => e.1.shape)).Named :=
        .tuple (List.forall_mem_map.mpr hnamed)
      split
      · next t =>
        have ht := hnamed _ List.mem_cons_self
        refine (passes_sees _).bind fun _ _ => ?_
        split
        · exact gives_parenBound hg _
        · exact gives_parenBound hg _
        · exact .pure ht
      · exact .pure htuple
  · exact .failure

theorem gives_pathType (lifetimes : Tokens) (allowPlus : Bool) :
    Gives (fun t => t.shape.Named) (g.pathType lifetimes allowPlus) := by
  refine (gives_anyPath hg false).bind fun p hp => ?_
  split
  · exact .pure (.other _)
  · next hqualified =>
    have hp : p.Named := hp.resolve_left hqualified
    refine (passes_sees _).bind fun _ _ => .ite
      (passes_bangGroup.bind fun _ _ => .pure (.other _)) ?_
    refine (passes_sees _).bind fun _ _ => .ite ?_ (.ite ?_ ?_)
    · exact (passes_op _).bind fun _ _ => (passes_boundList hg _).bind fun _ _ => .pure (.other _)
    · exact .pure (.path hp.ne hp.segments hp.last hp.types)
    · exact .pure (.other _)

theorem gives_quantifiedType (allowPlus : Bool) :
    Gives (fun t => t.shape.Named) (g.quantifiedType allowPlus) := by
  refine (passes_boundLifetimes hg).bind fun _ _ => .sees ?_
    (.sees (gives_pathType hg _ _) .failure)
  exact (passes_fnType hg).bind fun _ _ => .pure (.other _)

theorem gives_objectType (allowPlus : Bool) :
    Gives (fun t => t.shape.Named) (g.objectType allowPlus) := by
  refine gives_get.bind fun start _ => (passes_word _).bind fun _ _ => ?_
  refine (passes_optionalOp _).bind fun _ _ => (passes_bounds hg _ _).bind fun _ _ => ?_
  exact .ite (.pure (.other _)) ((passes_since _).bind fun _ _ => .pure (.other _))

theorem gives_bracketType : Gives (fun t => t.shape.Named) g.bracketType := by
  intro ts x rest hts hrun
  refine ⟨?_, (passes_inGroup _ _ ts x rest hts hrun).2⟩
  obtain ⟨inner, rfl, hinner⟩ := inGroup_cases hrun
  obtain ⟨hgroup, -⟩ := List.forall_mem_cons.mp hts
  cases hgroup with
  | group _ hvalid =>
    rw [StateT.run_bind] at hinner
    obtain ⟨⟨element, middle⟩, helement, hbehind⟩ := Option.bind_eq_some_iff.mp hinner
    have hnamed := (hg.type true inner element middle hvalid helement).1
    -- the length is an expression, which makes no difference to the names in the shape
    have halways : Always (fun t : TypeSyntax => t.shape.Named) (do
        if ← seesOp ";" then
          let semicolon ← op ";"
          let length ← g.expr true
          return ⟨.array element.shape (Token.textOf length.tokens),
            [.group .bracket (element.tokens ++ semicolon ++ length.tokens)], .other⟩
        else return ⟨.slice element.shape, [.group .bracket element.tokens], .other⟩) :=
      .bind fun _ => .ite (.bind fun _ => .bind fun _ => .pure (.array _ hnamed))
        (.pure (.slice hnamed))
    exact halways middle x [] hbehind

theorem gives_pointerType : Gives (fun t => t.shape.Named) g.pointerType := by
  have hbehind (front access : Tokens) :
      Gives (fun t => t.shape.Named)
        (do return TypeSyntax.other (front ++ access ++ (← g.type false).tokens)) :=
    (hg.type _).bind fun _ _ => .pure (.other _)
  exact (passes_op _).bind fun _ _ => .sees ((passes_word _).bind fun _ _ => hbehind _ _)
    ((passes_word _).bind fun _ _ => hbehind _ _)

theorem gives_referenceType : Gives (fun t => t.shape.Named) g.referenceType := by
  refine (passes_op _).bind fun _ _ => (passes_whenSees passes_lifetime).bind fun _ _ => ?_
  exact (passes_optionalWord _).bind fun _ _ => (hg.type _).bind fun _ ht => .pure (.reference _ ht)

theorem gives_nextType (allowPlus : Bool) :
    Gives (fun t => t.shape.Named) (g.nextType allowPlus) := by
  refine .sees (gives_quantifiedType hg _) (.sees (gives_parenType hg _) ?_)
  refine .sees ((passes_fnType hg).bind fun _ _ => .pure (.other _)) ?_
  refine .sees (gives_pathType hg _ _) (.sees (gives_objectType hg _) ?_)
  refine .sees (gives_bracketType hg) (.sees (gives_pointerType hg) ?_)
  refine .sees (gives_referenceType hg) (.sees ((passes_op _).bind fun _ _ => .pure (.other _)) ?_)
  refine .sees ?_ (.sees ((passes_word _).bind fun _ _ => .pure (.other _)) (.sees ?_ .failure))
  · exact (passes_word _).bind fun _ _ => (passes_bounds hg _ _).bind fun _ _ => .pure (.other _)
  · exact (passes_bounds hg _ _).bind fun _ _ => .pure (.other _)

end Rules

theorem tame_rules (depth : Nat) : (rules depth).Tame := by
  induction depth with
  | zero => exact ⟨fun _ => .failure, fun _ => .failure⟩
  | succ depth ih => exact ⟨Rules.gives_nextType ih, Rules.passes_nextBound ih⟩

theorem Reader.whole?_eq_some_iff {α : Type} {read : Reader α} {ts : Tokens} {x : α} :
    whole? read ts = some x ↔ read.run ts = some (x, []) := by
  rw [whole?]
  split
  · next y hrun => simp [hrun]
  · next hnot => simpa using hnot x

end Code

/-- The paths in the shape of a type that was read are made of names. -/
theorem TypeShape.named_of_parse? {text : String} {s : TypeShape} (h : parse? text = some s) :
    s.Named := by
  obtain ⟨t, ht, rfl⟩ := Option.map_eq_some_iff.mp h
  obtain ⟨ts, hts, hwhole⟩ := Option.bind_eq_some_iff.mp ht
  have hrun := Code.Reader.whole?_eq_some_iff.mp hwhole
  exact ((Code.tame_rules _).type true ts t [] (Code.valid_of_tokenize? hts) hrun).1

end TypedSheets
