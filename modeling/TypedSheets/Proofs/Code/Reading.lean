import Mathlib.Data.List.Forall2
import TypedSheets.Proofs.Code.Named

/-!
# Types read from their tokens

A type whose shape is known starts with a name, a bracket or an ampersand, and ends in front of a
comma, a semicolon, an angle bracket, or nothing. Between these the readers of types are taken
through once for each form: from what a rule makes of the parts follows what it makes of the whole,
and where one part is not read the whole is not.

## Main definitions

* `OpensType`, `EndsType` — what stands at the start of a type, and behind one
* `Takes` — what a reader makes of tokens, nothing included

## Main results

* `Takes.run_bind` — what goes on behind such a reader
* `takes_separated` — lists
* `Rules.takes_pathType`, `Rules.takes_parenType`, `Rules.takes_arrayType`, `Rules.takes_sliceType`,
  `Rules.takes_referenceType` — the forms of types
-/

namespace TypedSheets.Code

namespace Reader

variable {α β : Type}

/-! ### Readers one after another -/

theorem run_sees_bind (p : Tokens → Bool) (next : Bool → Reader α) (ts : Tokens) :
    (sees p >>= next).run ts = (next (p ts)).run ts := rfl

theorem run_seesOp_bind (s : String) (next : Bool → Reader α) (ts : Tokens) :
    (seesOp s >>= next).run ts = (next (startsOp s ts)).run ts := rfl

theorem run_seesWord_bind (s : String) (next : Bool → Reader α) (ts : Tokens) :
    (seesWord s >>= next).run ts = (next (startsWord s ts)).run ts := rfl

theorem run_seesGroup_bind (d : Delimiter) (next : Bool → Reader α) (ts : Tokens) :
    (seesGroup d >>= next).run ts = (next (startsGroup d ts)).run ts := rfl

theorem run_get_bind (next : Tokens → Reader α) (ts : Tokens) :
    ((get : Reader Tokens) >>= next).run ts = (next ts).run ts := rfl

theorem run_bind_of_run {read : Reader α} {ts rest : Tokens} {x : α}
    (h : read.run ts = some (x, rest)) (next : α → Reader β) :
    (read >>= next).run ts = (next x).run rest := by
  rw [StateT.run_bind, h]
  rfl

theorem run_bind_of_none {read : Reader α} {ts : Tokens} (h : read.run ts = none)
    (next : α → Reader β) : (read >>= next).run ts = none := by
  rw [StateT.run_bind, h]
  rfl

theorem run_bind_congr {read read' : Reader α} {ts ts' : Tokens}
    (h : read.run ts = read'.run ts') (next : α → Reader β) :
    (read >>= next).run ts = (read' >>= next).run ts' := by
  rw [StateT.run_bind, h, StateT.run_bind]

theorem run_op {s : String} {ts : Tokens} (h : startsOp s ts = true) :
    (op s).run ts = some (operator s, ts.drop s.length) := by
  rw [op, run_get_bind, if_pos h]
  rfl

theorem run_token {p : Token → Bool} {t : Token} (h : p t = true) (rest : Tokens) :
    (token p).run (t :: rest) = some (t, rest) := by
  rw [token, run_get_bind]
  dsimp only
  rw [if_pos h]
  rfl

theorem run_whenSees_of_not {p : Tokens → Bool} {ts : Tokens} (h : p ts = false)
    (read : Reader Tokens) : (whenSees p read).run ts = some ([], ts) := by
  rw [whenSees, run_sees_bind, h, if_neg Bool.false_ne_true]
  rfl

theorem run_inGroup {d : Delimiter} {read : Reader α} {inner : Tokens} {x : α}
    (h : read.run inner = some (x, [])) (rest : Tokens) :
    (inGroup d read).run (.group d inner :: rest) = some (x, rest) := by
  rw [inGroup, run_get_bind]
  simp [h]

theorem run_inGroup_of_none {d : Delimiter} {read : Reader α} {inner : Tokens}
    (h : read.run inner = none) (rest : Tokens) :
    (inGroup d read).run (.group d inner :: rest) = none := by
  rw [inGroup, run_get_bind]
  simp only [h, decide_true]
  rfl

end Reader

open Reader

/-! ### Where types start and end -/

theorem eq_name_of_startsWord {w : String} {t : Token} {rest : Tokens}
    (h : startsWord w (t :: rest) = true) : t = .name w := by
  cases t with
  | ident n raw =>
    cases raw with
    | true => cases h
    | false => rw [eq_of_beq h, Token.name]
  | lifetime _ | punct _ _ | literal _ | group _ _ => cases h

/-- A word is not in front of a token of a class that the word is none of. -/
theorem startsWord_eq_false {p : Token → Bool} {t : Token} (h : p t = true) {w : String}
    (hw : p (.name w) = false) (rest : Tokens) : startsWord w (t :: rest) = false := by
  by_contra hword
  rw [Bool.not_eq_false] at hword
  rw [eq_name_of_startsWord hword, hw] at h
  cases h

theorem startsAnyWord_eq_false {p : Token → Bool} {t : Token} (h : p t = true)
    {words : List String} (hwords : ∀ w ∈ words, p (.name w) = false) (rest : Tokens) :
    startsAnyWord words (t :: rest) = false := by
  rw [startsAnyWord, List.any_eq_false]
  intro w hw
  rw [startsWord_eq_false h (hwords w hw) rest]
  exact Bool.false_ne_true

theorem startsLiteral_eq_false {t : Token} (h : isSegment t = true) (rest : Tokens) :
    startsLiteral (t :: rest) = false := by
  have htrue := startsWord_eq_false h (w := "true") (by decide) rest
  have hfalse := startsWord_eq_false h (w := "false") (by decide) rest
  obtain ⟨n, raw, rfl⟩ := exists_ident_of_isSegment h
  cases raw with
  | true => rfl
  | false => exact Bool.or_eq_false_iff.mpr ⟨htrue, hfalse⟩

/-- How the tokens of a type start whose shape is known: with a segment of a path, a group or an
ampersand. -/
inductive OpensType : Tokens → Prop
  | segment {t : Token} (h : isSegment t = true) (rest : Tokens) : OpensType (t :: rest)
  | group {d : Delimiter} (hd : d ≠ .brace) (inner rest : Tokens) :
      OpensType (.group d inner :: rest)
  | amp (joint : Bool) (rest : Tokens) : OpensType (.punct '&' joint :: rest)

/-- What stands behind a type among others: a comma, a semicolon, an angle bracket, or nothing. -/
inductive EndsType : Tokens → Prop
  | nil : EndsType []
  | mark {c : Char} (hc : c ∈ [',', ';', '>']) (joint : Bool) (rest : Tokens) :
      EndsType (.punct c joint :: rest)

theorem startsOp_punct_eq_false {s : String} {c d : Char} (hs : s.toList.head? = some c)
    (hcd : c ≠ d) (joint : Bool) (rest : Tokens) : startsOp s (.punct d joint :: rest) = false := by
  obtain ⟨more, hmore⟩ := List.head?_eq_some_iff.mp hs
  have hbeq : (c == d) = false := beq_eq_false_iff_ne.mpr hcd
  rw [startsOp, hmore]
  cases more <;> cases joint <;> simp [startsOpChars, hbeq]

theorem startsOp_ident_eq_false {s : String} (hs : s.toList ≠ []) (n : String) (raw : Bool)
    (rest : Tokens) : startsOp s (.ident n raw :: rest) = false := by
  rw [startsOp]
  match hchars : s.toList with
  | [] => exact absurd hchars hs
  | [c] => rfl
  | c :: d :: more => rfl

theorem startsOp_group_eq_false {s : String} (hs : s.toList ≠ []) (d : Delimiter)
    (inner rest : Tokens) : startsOp s (.group d inner :: rest) = false := by
  rw [startsOp]
  match hchars : s.toList with
  | [] => exact absurd hchars hs
  | [c] => rfl
  | c :: d :: more => rfl

namespace EndsType

variable {rest : Tokens} (h : EndsType rest)

include h

theorem startsOp_eq_false {s : String} {c : Char} (hs : s.toList.head? = some c)
    (hc : c ∉ [',', ';', '>']) : startsOp s rest = false := by
  cases h with
  | nil =>
    obtain ⟨more, hmore⟩ := List.head?_eq_some_iff.mp hs
    rw [startsOp, hmore]
    cases more <;> rfl
  | mark hd joint rest =>
    refine startsOp_punct_eq_false hs ?_ joint rest
    rintro rfl
    exact hc hd

end EndsType

namespace OpensType

variable {ts : Tokens} (h : OpensType ts)

include h

theorem startsOp_eq_false {s : String} {c : Char} (hs : s.toList.head? = some c) (hc : c ≠ '&') :
    startsOp s ts = false := by
  have hne : s.toList ≠ [] := by rintro heq; rw [heq] at hs; cases hs
  cases h with
  | segment hsegment rest =>
    obtain ⟨n, raw, rfl⟩ := exists_ident_of_isSegment hsegment
    exact startsOp_ident_eq_false hne n raw rest
  | group _ inner rest => exact startsOp_group_eq_false hne _ inner rest
  | amp joint rest => exact startsOp_punct_eq_false hs hc joint rest

theorem startsLifetime_eq_false : startsLifetime ts = false := by
  cases h with
  | segment hsegment rest =>
    obtain ⟨n, raw, rfl⟩ := exists_ident_of_isSegment hsegment
    rfl
  | group _ _ _ | amp _ _ => rfl

theorem startsConstArg_eq_false : Rules.startsConstArg ts = false := by
  cases h with
  | @segment t hsegment rest =>
    have hliteral : startsLiteral (t :: rest) = false := startsLiteral_eq_false hsegment rest
    obtain ⟨n, raw, rfl⟩ := exists_ident_of_isSegment hsegment
    rw [Rules.startsConstArg, startsSignedLiteral, hliteral]
    rfl
  | group hd inner rest =>
    simp [Rules.startsConstArg, startsSignedLiteral, startsLiteral, startsNegative, startsGroup,
      hd.symm]
  | amp _ _ => rfl

theorem startsWord_mut_eq_false : startsWord "mut" ts = false := by
  cases h with
  | segment hsegment rest =>
    exact startsWord_eq_false hsegment (by decide) rest
  | group _ _ _ | amp _ _ => rfl

theorem isEmpty_eq_false : ts.isEmpty = false := by
  cases h <;> rfl

theorem append (rest : Tokens) : OpensType (ts ++ rest) := by
  cases h with
  | segment hsegment more => exact .segment hsegment (more ++ rest)
  | group hd inner more => exact .group hd inner (more ++ rest)
  | amp joint more => exact .amp joint (more ++ rest)

end OpensType

/-! ### What readers take -/

/-- In front of tokens that end it, a reader takes just these tokens, and what it gives looks so; or
it takes none. -/
def Takes {α β : Type} (ends : Tokens → Prop) (view : α → β) (read : Reader α) (ts : Tokens)
    (o : Option β) : Prop :=
  ∀ rest, ends rest → (read.run (ts ++ rest)).map (Prod.map view id) = o.map (·, rest)

namespace Takes

variable {α β : Type} {ends : Tokens → Prop} {view : α → β} {read : Reader α} {ts rest : Tokens}

theorem of_none (h : ∀ rest, ends rest → read.run (ts ++ rest) = none) :
    Takes ends view read ts none := by
  intro rest hrest
  rw [h rest hrest]
  rfl

theorem of_some {y : β}
    (h : ∀ rest, ends rest → ∃ x, view x = y ∧ read.run (ts ++ rest) = some (x, rest)) :
    Takes ends view read ts (some y) := by
  intro rest hrest
  obtain ⟨x, rfl, hrun⟩ := h rest hrest
  rw [hrun]
  rfl

theorem run_none (h : Takes ends view read ts none) (hrest : ends rest) :
    read.run (ts ++ rest) = none :=
  Option.map_eq_none_iff.mp (h rest hrest)

theorem run_some {y : β} (h : Takes ends view read ts (some y)) (hrest : ends rest) :
    ∃ x, view x = y ∧ read.run (ts ++ rest) = some (x, rest) := by
  obtain ⟨⟨x, rest'⟩, hrun, heq⟩ := Option.map_eq_some_iff.mp (h rest hrest)
  obtain ⟨hx, rfl⟩ := Prod.mk.inj heq
  exact ⟨x, hx, hrun⟩

variable {γ δ : Type} {viewNext : γ → δ} {next : α → Reader γ} {o : Option β}

/-- What goes on behind a reading that gives something, or nothing. -/
theorem run_bind {f : β → Option δ} (h : Takes ends view read ts o) (hrest : ends rest)
    (behind : Tokens)
    (hnext : ∀ x, o = some (view x) →
      ((next x).run rest).map (Prod.map viewNext id) = (f (view x)).map (·, behind)) :
    ((read >>= next).run (ts ++ rest)).map (Prod.map viewNext id) =
      (o.bind f).map (·, behind) := by
  cases o with
  | none =>
    rw [run_bind_of_none (h.run_none hrest)]
    rfl
  | some y =>
    obtain ⟨x, rfl, hrun⟩ := h.run_some hrest
    rw [run_bind_of_run hrun, hnext x rfl]
    rfl

/-- What goes on and always gives something behind a reading that may give nothing. -/
theorem run_bind_map {f : β → δ} (h : Takes ends view read ts o) (hrest : ends rest)
    (behind : Tokens)
    (hnext : ∀ x, o = some (view x) →
      ((next x).run rest).map (Prod.map viewNext id) = some (f (view x), behind)) :
    ((read >>= next).run (ts ++ rest)).map (Prod.map viewNext id) =
      (o.map f).map (·, behind) := by
  rw [Option.map_eq_bind (x := o)]
  exact h.run_bind (f := some ∘ f) hrest behind hnext

/-- What is read in a group to its end. -/
theorem inGroup {inner : Tokens} (h : Takes (· = []) view read inner o) (d : Delimiter) :
    Takes (fun _ => True) view (inGroup d read) [.group d inner] o := by
  intro rest _
  have hinner := h [] rfl
  rw [List.append_nil] at hinner
  cases o with
  | none =>
    rw [List.singleton_append, run_inGroup_of_none (Option.map_eq_none_iff.mp hinner)]
    rfl
  | some y =>
    obtain ⟨⟨x, behind⟩, hrun, heq⟩ := Option.map_eq_some_iff.mp hinner
    obtain ⟨rfl, rfl⟩ := Prod.mk.inj heq
    rw [List.singleton_append, run_inGroup hrun]
    rfl

end Takes

/-! ### Lists -/

/-- Entries of a list, each with the comma behind it; none stands behind the last. -/
def withCommas {β : Type} : List β → List (β × Tokens)
  | [] => []
  | [y] => [(y, [])]
  | y :: z :: more => (y, operator ",") :: withCommas (z :: more)

theorem map_fst_withCommas {β : Type} (ys : List β) : (withCommas ys).map Prod.fst = ys := by
  induction ys using withCommas.induct <;> simp_all [withCommas]

theorem filterMap_fst_withCommas {β : Type} (ys : List β) :
    (withCommas (ys.map some)).filterMap Prod.fst = ys := by
  have hsome := List.filterMap_map (f := Prod.fst) (g := id) (l := withCommas (ys.map some))
  rw [map_fst_withCommas, List.filterMap_map, Function.id_comp] at hsome
  exact hsome.symm.trans List.filterMap_some

theorem withCommas_cons {β : Type} (y : β) {ys : List β} (h : ys ≠ []) :
    withCommas (y :: ys) = (y, operator ",") :: withCommas ys := by
  cases ys with
  | nil => exact absurd rfl h
  | cons z more => rfl

section Lists

variable {α β σ : Type} {view : α → β} {read : Reader α} {f : σ → Option β}
  {isStop : Tokens → Bool} {tail : Tokens}

/-- An entry and the comma behind it, in front of what is read of the other entries. -/
theorem run_bind_withComma {more : Reader (List (α × Tokens))} {ts : Tokens}
    {o : Option (List β)} (a : α) (hne : ∀ ys ∈ o, ys ≠ [])
    (h : (more.run ts).map (Prod.map (List.map (Prod.map view id)) id) =
      o.map (withCommas ·, tail)) :
    ((more >>= fun entries => pure ((a, operator ",") :: entries)).run ts).map
        (Prod.map (List.map (Prod.map view id)) id) =
      (o.map fun ys => withCommas (view a :: ys)).map (·, tail) := by
  cases o with
  | none =>
    rw [run_bind_of_none (Option.map_eq_none_iff.mp h)]
    rfl
  | some ys =>
    obtain ⟨⟨entries, rest⟩, hrun, heq⟩ := Option.map_eq_some_iff.mp h
    obtain ⟨hentries, rfl⟩ := Prod.mk.inj heq
    rw [run_bind_of_run hrun, Option.map_some, withCommas_cons _ (hne ys rfl), ← hentries]
    rfl

theorem run_separatedWithin {tss : List Tokens} {xs : List σ}
    (heach : List.Forall₂ (fun ts x => OpensType ts ∧ Takes EndsType view read ts (f x)) tss xs)
    (hne : tss ≠ []) (hopens : ∀ ts, OpensType ts → isStop ts = false)
    (hcomma : ∀ more, isStop (.mark ',' :: more) = false) (hstop : isStop tail = true)
    (htail : EndsType tail) {fuel : Nat}
    (hfuel : ([Token.mark ','].intercalate tss ++ tail).length < fuel) :
    ((separatedWithin "," isStop read fuel).run ([Token.mark ','].intercalate tss ++ tail)).map
        (Prod.map (List.map (Prod.map view id)) id) =
      (xs.mapM f).map (withCommas ·, tail) := by
  -- on the entries: all but the last have a comma behind them, which the reader asks for
  induction heach generalizing fuel with
  | nil => exact absurd rfl hne
  | @cons ts x tss xs hts hrest ih =>
    obtain ⟨fuel, rfl⟩ : ∃ n, fuel = n + 1 := ⟨fuel - 1, by omega⟩
    obtain ⟨hopen, htakes⟩ := hts
    cases hrest with
    | nil =>
      rw [List.intercalate_singleton, separatedWithin, run_sees_bind, hopens _ (hopen.append tail),
        if_neg Bool.false_ne_true]
      refine (htakes.run_bind_map (f := fun y => [(y, [])]) htail tail fun a _ => ?_).trans ?_
      · rw [run_sees_bind, hstop, if_pos rfl]
        rfl
      · rw [List.mapM_cons]
        cases f x <;> rfl
    | @cons ts' x' tss xs hts' hrest =>
      have hcut : [Token.mark ','].intercalate (ts :: ts' :: tss) ++ tail =
          ts ++ (.mark ',' :: ([Token.mark ','].intercalate (ts' :: tss) ++ tail)) := by
        simp [List.intercalate_cons_cons]
      have hmark : EndsType (.mark ',' :: ([Token.mark ','].intercalate (ts' :: tss) ++ tail)) :=
        .mark (by decide) false _
      rw [hcut] at hfuel ⊢
      have hmore := @ih (List.cons_ne_nil _ _) fuel (by simp at hfuel ⊢; omega)
      rw [separatedWithin, run_sees_bind, hopens _ (hopen.append _), if_neg Bool.false_ne_true]
      refine (htakes.run_bind (f := fun y => ((x' :: xs).mapM f).map fun ys => withCommas (y :: ys))
        hmark tail fun a _ => ?_).trans ?_
      · rw [run_sees_bind, hcomma, if_neg Bool.false_ne_true, run_bind_of_run (run_op (by rfl))]
        refine run_bind_withComma a (fun ys hys => ?_) hmore
        rintro rfl
        simp [List.mapM_cons, Option.bind_eq_some_iff] at hys
      · rw [List.mapM_cons (a := x)]
        cases f x <;> cases (x' :: xs).mapM f <;> rfl

theorem takes_separated {tss : List Tokens} {xs : List σ}
    (heach : List.Forall₂ (fun ts x => OpensType ts ∧ Takes EndsType view read ts (f x)) tss xs)
    (hne : tss ≠ []) (hopens : ∀ ts, OpensType ts → isStop ts = false)
    (hcomma : ∀ more, isStop (.mark ',' :: more) = false) :
    Takes (fun tail => isStop tail = true ∧ EndsType tail) (List.map (Prod.map view id))
      (separated "," isStop read) ([Token.mark ','].intercalate tss)
      ((xs.mapM f).map withCommas) := by
  rintro tail ⟨hstop, htail⟩
  rw [separated, run_get_bind,
    run_separatedWithin heach hne hopens hcomma hstop htail (Nat.lt_succ_self _), Option.map_map]
  rfl

end Lists

theorem mapM_map_some {α β : Type} (f : α → Option β) (xs : List α) :
    xs.mapM (fun x => (f x).map some) = (xs.mapM f).map (List.map some) := by
  induction xs with
  | nil => rfl
  | cons x xs ih =>
    rw [List.mapM_cons, List.mapM_cons, ih]
    cases f x with
    | none => rfl
    | some y => cases xs.mapM f <;> rfl

namespace Rules

variable {g : Rules} {ts rest : Tokens}

/-! ### Paths -/

theorem takes_genericArg {o : Option TypeShape} (hopen : OpensType ts)
    (h : Takes EndsType TypeSyntax.shape (g.type true) ts o) :
    Takes EndsType ArgSyntax.type g.genericArg ts (o.map some) := by
  intro rest hrest
  rw [genericArg, run_sees_bind, (hopen.append rest).startsLifetime_eq_false, Bool.false_and,
    if_neg Bool.false_ne_true, run_sees_bind, (hopen.append rest).startsConstArg_eq_false,
    if_neg Bool.false_ne_true]
  refine h.run_bind_map hrest _ fun t _ => ?_
  dsimp only
  rw [run_seesOp_bind, hrest.startsOp_eq_false (c := '=') rfl (by decide), Bool.and_false,
    if_neg Bool.false_ne_true, run_seesOp_bind,
    hrest.startsOp_eq_false (c := ':') rfl (by decide), Bool.and_false,
    if_neg Bool.false_ne_true]
  rfl

/-- Arguments in angle brackets, all of them types. -/
theorem takes_angleArgs {σ : Type} {f : σ → Option TypeShape} {tss : List Tokens} {xs : List σ}
    (heach : List.Forall₂ (fun ts x => OpensType ts ∧
      Takes EndsType TypeSyntax.shape (g.type true) ts (f x)) tss xs) (hne : tss ≠ [])
    (joint next : Bool) :
    Takes (fun _ => True) ArgsSyntax.types g.angleArgs
      (.punct '<' joint :: [Token.mark ','].intercalate tss ++ [.punct '>' next])
      (xs.mapM f) := by
  -- the arguments with commas between them, up to the closing angle
  have hargs : Takes (fun tail => startsOp ">" tail = true ∧ EndsType tail)
      (List.map (Prod.map ArgSyntax.type id)) (separated "," (startsOp ">") g.genericArg)
      ([Token.mark ','].intercalate tss) ((xs.mapM fun x => (f x).map some).map withCommas) :=
    takes_separated (heach.imp fun ts x h => ⟨h.1, takes_genericArg h.1 h.2⟩) hne
    (fun ts hts => hts.startsOp_eq_false (c := '>') rfl (by decide)) (fun _ => rfl)
  rw [mapM_map_some, Option.map_map] at hargs
  intro rest _
  have hend : startsOp ">" (.punct '>' next :: rest) = true ∧ EndsType (.punct '>' next :: rest) :=
    ⟨rfl, .mark (by decide) _ _⟩
  have hcolons : startsOp "::" (.punct '<' joint ::
      ([Token.mark ','].intercalate tss ++ .punct '>' next :: rest)) = false :=
    startsOp_punct_eq_false (c := ':') rfl (by decide) joint _
  rw [angleArgs, List.cons_append, List.cons_append, List.append_assoc, List.singleton_append,
    optionalOp, run_bind_of_run (run_whenSees_of_not hcolons _), run_bind_of_run (run_op (by rfl))]
  change Option.map _ ((separated "," (startsOp ">") g.genericArg >>= _).run
    ([Token.mark ','].intercalate tss ++ .punct '>' next :: rest)) = _
  refine (hargs.run_bind_map (f := fun ys => ys.filterMap Prod.fst) hend rest
    fun args _ => ?_).trans ?_
  · rw [run_bind_of_run (run_op hend.1), List.filterMap_map]
    rfl
  · simp [Function.comp_def, filterMap_fst_withCommas]

/-- A segment with what stands behind it: arguments, or none where none start. -/
abbrev TakesSegment (g : Rules) (t : Token) (tail : Tokens) (o : Option (List TypeShape)) : Prop :=
  Takes EndsType (fun x => (x.1, x.2.types)) (g.segment false) (t :: tail) (o.map (t, ·))

theorem run_segment_absent {t : Token} (ht : isSegment t = true) {inExpr : Bool}
    (hrest : startsArgs inExpr rest = false) :
    (g.segment inExpr).run (t :: rest) = some ((t, .absent), rest) := by
  rw [segment, run_bind_of_run (run_token ht rest), run_sees_bind, hrest, Bool.and_false,
    if_neg Bool.false_ne_true]
  rfl

theorem startsArgs_eq_false_of_endsType (h : EndsType rest) : startsArgs false rest = false := by
  rw [startsArgs, h.startsOp_eq_false (s := "<") (c := '<') rfl (by decide),
    h.startsOp_eq_false (s := "::") (c := ':') rfl (by decide)]
  rfl

theorem takesSegment_nil {t : Token} (ht : isSegment t = true) : TakesSegment g t [] (some []) :=
  .of_some fun _ hrest => ⟨(t, .absent), rfl,
    run_segment_absent ht (startsArgs_eq_false_of_endsType hrest)⟩

theorem takesSegment_angleArgs {t : Token} (ht : isSegment t = true)
    (hplace : isPlaceWord t = false) {joint : Bool} {more : Tokens} {o : Option (List TypeShape)}
    (h : Takes (fun _ => True) ArgsSyntax.types g.angleArgs (.punct '<' joint :: more) o)
    (hopen : OpensType more) : TakesSegment g t (.punct '<' joint :: more) o := by
  intro rest _
  have hargs : startsArgs false (.punct '<' joint :: (more ++ rest)) = true := by
    have hopen := hopen.append rest
    have hle : startsOpChars ['='] (more ++ rest) = false :=
      hopen.startsOp_eq_false (s := "=") (c := '=') rfl (by decide)
    have hshift : startsOpChars ['<', '='] (more ++ rest) = false :=
      hopen.startsOp_eq_false (s := "<=") (c := '<') rfl (by decide)
    cases joint <;> simp [startsArgs, startsOp, startsOpChars, hle, hshift]
  rw [segment, List.cons_append, run_bind_of_run (run_token ht _), run_sees_bind, hplace]
  rw [List.cons_append, hargs, Bool.not_false, Bool.and_true, if_pos rfl]
  exact h.run_bind_map trivial _ fun args _ => rfl

/-- The names behind the first of a path, with their colons. -/
def furtherNames : List String → Tokens
  | [] => []
  | s :: rest => .punct ':' true :: .punct ':' false :: nameToken s :: furtherNames rest

/-- What a path without a type in front gives. -/
def pathView (p : PathSyntax) : Bool × List String × List TypeShape :=
  (p.isQualified, p.segments, p.last.types)

/-- What reads the further names of a path. -/
def pathStep (g : Rules) (p : PathSyntax) : Reader (Option PathSyntax) := do
  if ← sees fun ts => startsOp "::" ts && !startsGroup .paren (ts.drop 2) then
    let colons ← op "::"
    let (t, args) ← g.segment false
    return some (p.push colons t args)
  else return none

theorem length_furtherNames (ms : List String) : (furtherNames ms).length = 3 * ms.length := by
  induction ms with
  | nil => rfl
  | cons m ms ih => simp [furtherNames, ih]; omega

/-- Behind the last name a path ends. -/
theorem run_pathStep_end (p : PathSyntax) (h : EndsType rest) :
    (g.pathStep p).run rest = some (none, rest) := by
  rw [pathStep, run_sees_bind, h.startsOp_eq_false (s := "::") (c := ':') rfl (by decide),
    Bool.false_and, if_neg Bool.false_ne_true]
  rfl

/-- A further name is read as a segment. -/
theorem run_pathStep (p : PathSyntax) {m : String} (hm : IsSegmentName m) (rest : Tokens) :
    (g.pathStep p).run (.punct ':' true :: .punct ':' false :: nameToken m :: rest) =
      (g.segment false >>= fun x => pure (some (p.push (operator "::") x.1 x.2))).run
        (nameToken m :: rest) := by
  obtain ⟨n, raw, hn⟩ := exists_ident_of_isSegment hm.isSegment
  rw [pathStep, run_sees_bind, hn]
  rfl

variable {tail : Tokens} {o : Option (List TypeShape)}

/-- In front of a further name no arguments start. -/
theorem startsArgs_furtherNames {m : String} (hm : IsSegmentName m) (ms : List String)
    (rest : Tokens) : startsArgs false (furtherNames (m :: ms) ++ rest) = false := by
  obtain ⟨n, raw, hn⟩ := exists_ident_of_isSegment hm.isSegment
  rw [furtherNames, hn]
  rfl

/-- The last name of a path, with its arguments. -/
theorem takes_lastName {m : String} (hm : IsSegmentName m)
    (hlast : TakesSegment g (nameToken m) tail o) (p : PathSyntax) (fuel : Nat) :
    Takes EndsType pathView (iterateWithin g.pathStep (fuel + 2) p) (furtherNames [m] ++ tail)
      (o.map fun types => (p.isQualified, p.segments ++ [m], types)) := by
  intro rest hrest
  have hstep := run_pathStep (g := g) p hm (tail ++ rest)
  change ((iterateWithin g.pathStep (fuel + 2) p).run (.punct ':' true :: .punct ':' false ::
    nameToken m :: (tail ++ rest))).map _ = _
  rw [iterateWithin, run_bind_congr hstep, bind_assoc]
  refine (hlast.run_bind_map (f := fun y => (p.isQualified, p.segments ++ [y.1.text], y.2)) hrest
    rest fun x _ => ?_).trans ?_
  · change Option.map _ ((iterateWithin g.pathStep (fuel + 1) _).run rest) = _
    rw [iterateWithin, run_bind_of_run (run_pathStep_end _ hrest)]
    rfl
  · simp only [Option.map_map, Function.comp_def, hm.text]

theorem takes_furtherNames {m : String} {ms : List String} (hms : ∀ s ∈ m :: ms, IsSegmentName s)
    (hlast : TakesSegment g (nameToken ((m :: ms).getLast (List.cons_ne_nil m ms))) tail o)
    (p : PathSyntax) {fuel : Nat} (hfuel : ms.length + 1 < fuel) :
    Takes EndsType pathView (iterateWithin g.pathStep fuel p) (furtherNames (m :: ms) ++ tail)
      (o.map fun types => (p.isQualified, p.segments ++ (m :: ms), types)) := by
  obtain ⟨fuel, rfl⟩ : ∃ n, fuel = n + 2 := ⟨fuel - 2, by omega⟩
  -- only the last name can have arguments: each one before it is a step of its own
  induction ms generalizing m p fuel with
  | nil => exact takes_lastName (hms m List.mem_cons_self) hlast p fuel
  | cons m' ms ih =>
    obtain ⟨fuel, rfl⟩ : ∃ n, fuel = n + 1 := ⟨fuel - 1, by simp at hfuel; omega⟩
    intro rest hrest
    obtain ⟨hm, hms⟩ := List.forall_mem_cons.mp hms
    have hnone := startsArgs_furtherNames (hms m' List.mem_cons_self) ms (tail ++ rest)
    rw [← List.append_assoc] at hnone
    have hstep := run_pathStep (g := g) p hm (furtherNames (m' :: ms) ++ tail ++ rest)
    rw [run_bind_of_run (run_segment_absent hm.isSegment hnone)] at hstep
    have hmore := ih hms hlast (p.push (operator "::") (nameToken m) .absent) fuel
      (by simp at hfuel ⊢; omega) rest hrest
    change ((iterateWithin g.pathStep (fuel + 3) p).run (.punct ':' true :: .punct ':' false ::
      nameToken m :: (furtherNames (m' :: ms) ++ tail ++ rest))).map _ = _
    rw [iterateWithin, run_bind_of_run hstep]
    refine hmore.trans ?_
    simp [PathSyntax.push, hm.text]

/-- A path, from its first name on. -/
theorem takes_path {m : String} {ms : List String} (hms : ∀ s ∈ m :: ms, IsSegmentName s)
    (hlast : TakesSegment g (nameToken ((m :: ms).getLast (List.cons_ne_nil m ms))) tail o) :
    Takes EndsType pathView (g.path false) (nameToken m :: furtherNames ms ++ tail)
      (o.map fun types => (false, m :: ms, types)) := by
  intro rest hrest
  obtain ⟨hm, hms⟩ := List.forall_mem_cons.mp hms
  obtain ⟨n, raw, hn⟩ := exists_ident_of_isSegment hm.isSegment
  have hcolons : startsOp "::" (nameToken m :: furtherNames ms ++ tail ++ rest) = false := by
    rw [hn]; rfl
  rw [path, optionalOp, run_bind_of_run (run_whenSees_of_not hcolons _)]
  -- one name is the last one; else the first has no arguments, and the others follow
  cases ms with
  | nil =>
    change TakesSegment g (nameToken m) tail o at hlast
    change Option.map _ ((g.segment false >>= _).run (nameToken m :: tail ++ rest)) = _
    refine (hlast.run_bind_map (f := fun y => (false, [y.1.text], y.2)) hrest rest
      fun x _ => ?_).trans ?_
    · change Option.map _ ((iterate g.pathStep _).run rest) = _
      rw [iterate, run_get_bind, iterateWithin, run_bind_of_run (run_pathStep_end _ hrest)]
      rfl
    · simp only [Option.map_map, Function.comp_def, hm.text]
  | cons m' ms =>
    have hnone := startsArgs_furtherNames (hms m' List.mem_cons_self) ms (tail ++ rest)
    rw [← List.append_assoc] at hnone
    change Option.map _ ((g.segment false >>= _).run
      (nameToken m :: (furtherNames (m' :: ms) ++ tail ++ rest))) = _
    rw [run_bind_of_run (run_segment_absent hm.isSegment hnone)]
    change Option.map _ ((iterate g.pathStep _).run _) = _
    rw [iterate, run_get_bind]
    have hfuel : ms.length + 1 < (furtherNames (m' :: ms) ++ tail ++ rest).length + 1 := by
      simp only [List.length_append, length_furtherNames, List.length_cons]
      omega
    refine (takes_furtherNames hms hlast _ hfuel rest hrest).trans ?_
    simp [hm.text]

/-! ### Types -/

/-- A type that starts with a name of a path is that path. -/
theorem run_nextType_name {t : Token} (ht : isModuleName t = true) (hsegment : isSegment t = true)
    (allowPlus : Bool) (rest : Tokens) :
    (g.nextType allowPlus).run (t :: rest) = (g.pathType [] allowPlus).run (t :: rest) := by
  have hfor := startsWord_eq_false hsegment (w := "for") (by decide) rest
  have hfn : startsFn (t :: rest) = false := startsAnyWord_eq_false hsegment (by decide) rest
  have hparen : startsGroup .paren (t :: rest) = false := by
    obtain ⟨n, raw, rfl⟩ := exists_ident_of_isSegment hsegment
    rfl
  have hpath : startsPath (t :: rest) = true := by simp [startsPath, startsPathName, ht]
  rw [nextType, run_seesWord_bind, hfor, if_neg Bool.false_ne_true, run_seesGroup_bind, hparen,
    if_neg Bool.false_ne_true, run_sees_bind, hfn,
    if_neg Bool.false_ne_true, run_sees_bind, hpath, if_pos rfl]

/-- No type starts with `try`. -/
theorem run_nextType_try (allowPlus : Bool) (rest : Tokens) :
    (g.nextType allowPlus).run (.name "try" :: rest) = none := by
  rfl

theorem takes_anyPath {m : String} {ms : List String} (hms : ∀ s ∈ m :: ms, IsSegmentName s)
    (hlast : TakesSegment g (nameToken ((m :: ms).getLast (List.cons_ne_nil m ms))) tail o) :
    Takes EndsType pathView (g.anyPath false) (nameToken m :: furtherNames ms ++ tail)
      (o.map fun types => (false, m :: ms, types)) := by
  intro rest hrest
  have hopen : OpensType (nameToken m :: furtherNames ms ++ tail ++ rest) :=
    .segment (hms m List.mem_cons_self).isSegment (furtherNames ms ++ tail ++ rest)
  rw [anyPath, run_seesOp_bind, hopen.startsOp_eq_false (c := '<') rfl (by decide),
    if_neg Bool.false_ne_true]
  exact takes_path hms hlast rest hrest

theorem takes_pathType {m : String} {ms : List String} (hms : ∀ s ∈ m :: ms, IsSegmentName s)
    (hname : isModuleName (nameToken m) = true)
    (hlast : TakesSegment g (nameToken ((m :: ms).getLast (List.cons_ne_nil m ms))) tail o)
    (allowPlus : Bool) :
    Takes EndsType TypeSyntax.shape (g.nextType allowPlus) (nameToken m :: furtherNames ms ++ tail)
      (o.map (.path (m :: ms))) := by
  intro rest hrest
  -- what ends a type is neither the call of a macro nor another bound
  have hbang : startsBang rest = false := by
    rw [startsBang, hrest.startsOp_eq_false (c := '!') rfl (by decide), Bool.false_and]
  have hplus := hrest.startsOp_eq_false (s := "+") (c := '+') rfl (by decide)
  change Option.map _ ((g.nextType allowPlus).run
    (nameToken m :: (furtherNames ms ++ tail ++ rest))) = _
  rw [run_nextType_name hname (hms m List.mem_cons_self).isSegment, pathType]
  refine ((takes_anyPath hms hlast).run_bind_map (f := fun y => .path y.2.1 y.2.2) hrest rest
    fun p hp => ?_).trans ?_
  · obtain ⟨types, -, heq⟩ := Option.map_eq_some_iff.mp hp
    have hqualified : p.isQualified = false := (congrArg Prod.fst heq).symm
    rw [hqualified, if_neg Bool.false_ne_true, run_sees_bind, hbang, Bool.and_false,
      if_neg Bool.false_ne_true, run_seesOp_bind, hplus, Bool.and_false,
      if_neg Bool.false_ne_true]
    rfl
  · simp only [Option.map_map, Function.comp_def]

theorem run_nextType_bracket (inner rest : Tokens) (allowPlus : Bool) :
    (g.nextType allowPlus).run (.group .bracket inner :: rest) =
      g.bracketType.run (.group .bracket inner :: rest) := by
  rfl

theorem run_nextType_paren (inner rest : Tokens) (allowPlus : Bool) :
    (g.nextType allowPlus).run (.group .paren inner :: rest) =
      (g.parenType allowPlus).run (.group .paren inner :: rest) := by
  rfl

theorem run_nextType_amp (joint : Bool) (rest : Tokens) (allowPlus : Bool) :
    (g.nextType allowPlus).run (.punct '&' joint :: rest) =
      g.referenceType.run (.punct '&' joint :: rest) := by
  cases joint <;> rfl

theorem takes_referenceType {ts : Tokens} {o : Option TypeShape} (hopen : OpensType ts)
    (h : Takes EndsType TypeSyntax.shape (g.type false) ts o) (joint isMutable allowPlus : Bool) :
    Takes EndsType TypeSyntax.shape (g.nextType allowPlus)
      (.punct '&' joint :: ((if isMutable then [.name "mut"] else []) ++ ts))
      (o.map (.reference isMutable)) := by
  intro rest hrest
  have hopen := hopen.append rest
  rw [List.cons_append, List.append_assoc, run_nextType_amp, referenceType,
    run_bind_of_run (run_op (by rfl))]
  change Option.map _ ((whenSees startsLifetime Reader.lifetime >>= _).run
    ((if isMutable then [.name "mut"] else []) ++ (ts ++ rest))) = _
  -- what starts a type starts neither a lifetime nor the mark of a mutable reference
  have hlifetime :
      startsLifetime ((if isMutable then [.name "mut"] else []) ++ (ts ++ rest)) = false := by
    cases isMutable with
    | true => rfl
    | false => exact hopen.startsLifetime_eq_false
  have hmut : (optionalWord "mut").run
      ((if isMutable then [.name "mut"] else []) ++ (ts ++ rest)) =
        some (if isMutable then [.name "mut"] else [], ts ++ rest) := by
    cases isMutable with
    | true => rfl
    | false => exact run_whenSees_of_not hopen.startsWord_mut_eq_false _
  rw [run_bind_of_run (run_whenSees_of_not hlifetime _), run_bind_of_run hmut]
  refine h.run_bind_map hrest _ fun t _ => ?_
  cases isMutable <;> rfl

theorem takes_sliceType {ts : Tokens} {o : Option TypeShape}
    (h : Takes EndsType TypeSyntax.shape (g.type true) ts o) (allowPlus : Bool) :
    Takes EndsType TypeSyntax.shape (g.nextType allowPlus) [.group .bracket ts]
      (o.map .slice) := by
  intro rest _
  rw [List.singleton_append, run_nextType_bracket, bracketType]
  refine Takes.inGroup (fun behind hbehind => ?_) .bracket rest trivial
  obtain rfl := hbehind
  exact h.run_bind_map .nil [] fun t _ => rfl

theorem takes_arrayType {ts length : Tokens} {o : Option TypeShape} {e : ExprSyntax}
    (h : Takes EndsType TypeSyntax.shape (g.type true) ts o)
    (hlength : (g.expr true).run length = some (e, [])) (allowPlus : Bool) :
    Takes EndsType TypeSyntax.shape (g.nextType allowPlus)
      [.group .bracket (ts ++ .mark ';' :: length)]
      (o.map (.array · (Token.textOf e.tokens))) := by
  intro rest _
  rw [List.singleton_append, run_nextType_bracket, bracketType]
  -- the element ends at the semicolon, and the length at the end of the group
  refine Takes.inGroup (fun behind hbehind => ?_) .bracket rest trivial
  obtain rfl := hbehind
  have hmark : EndsType (.mark ';' :: length) := .mark (by decide) false length
  rw [List.append_nil]
  refine h.run_bind_map hmark [] fun t _ => ?_
  rw [run_seesOp_bind]
  change Option.map _ ((op ";" >>= _).run (.mark ';' :: length)) = _
  rw [run_bind_of_run (run_op (by rfl))]
  change Option.map _ ((g.expr true >>= _).run length) = _
  rw [run_bind_of_run hlength]
  rfl

theorem takes_unitType (allowPlus : Bool) :
    Takes EndsType TypeSyntax.shape (g.nextType allowPlus) [.group .paren []]
      (some (.tuple [])) := fun _ _ => rfl

/-- What types in parentheses are, with commas between them: a single one is just that type. -/
def parenShape : List TypeShape → TypeShape
  | [s] => s
  | shapes => .tuple shapes

theorem takes_parenType {σ : Type} {f : σ → Option TypeShape} {tss : List Tokens} {xs : List σ}
    (heach : List.Forall₂ (fun ts x => OpensType ts ∧
      Takes EndsType TypeSyntax.shape (g.type true) ts (f x)) tss xs) (hne : tss ≠ [])
    (hopen : OpensType ([Token.mark ','].intercalate tss)) (allowPlus : Bool) :
    Takes EndsType TypeSyntax.shape (g.nextType allowPlus)
      [.group .paren ([Token.mark ','].intercalate tss)] ((xs.mapM f).map parenShape) := by
  intro rest hrest
  have helements : Takes (· = []) (List.map (Prod.map TypeSyntax.shape id))
      (separated "," List.isEmpty (g.type true)) ([Token.mark ','].intercalate tss)
      ((xs.mapM f).map withCommas) := by
    rintro _ rfl
    exact takes_separated heach hne (fun ts hts => hts.isEmpty_eq_false) (fun _ => rfl) []
      ⟨rfl, .nil⟩
  generalize [Token.mark ','].intercalate tss = inner at hopen helements ⊢
  have hlifetime := hopen.startsLifetime_eq_false
  have hquestion := hopen.startsOp_eq_false (s := "?") (c := '?') rfl (by decide)
  obtain ⟨t, more, rfl⟩ : ∃ t more, inner = t :: more := by cases hopen <;> exact ⟨_, _, rfl⟩
  rw [List.singleton_append, run_nextType_paren, parenType, run_get_bind]
  dsimp only
  rw [if_neg (by simp [hlifetime]), if_neg (by simp [hquestion])]
  refine ((helements.inGroup .paren).run_bind_map (f := fun ys => parenShape (ys.map Prod.fst))
    trivial rest fun elements helements => ?_).trans ?_
  · obtain ⟨shapes, -, hview⟩ := Option.map_eq_some_iff.mp helements
    match elements, hview with
    | [], _ => rfl
    | [(t, mark)], hview =>
      -- no comma stands behind the only element
      obtain rfl : mark = [] := by
        have hfst := congrArg (List.map Prod.fst) hview
        rw [map_fst_withCommas] at hfst
        obtain rfl : shapes = [t.shape] := hfst
        exact (congrArg Prod.snd (List.cons.inj hview).1).symm
      have hplus := hrest.startsOp_eq_false (s := "+") (c := '+') rfl (by decide)
      dsimp only
      rw [run_seesOp_bind, hplus, Bool.and_false]
      cases t.form <;> rfl
    | ⟨_, mark⟩ :: e' :: more, _ =>
      cases mark <;> simp [parenShape, Function.comp_def]
  · simp [Function.comp_def, map_fst_withCommas]

end Rules

end TypedSheets.Code
