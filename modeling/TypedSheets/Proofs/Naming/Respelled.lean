import TypedSheets.Proofs.Text.Words

/-!
# Names that are spelled twice

A name that is spelled under a strategy is cut into words once more when it is spelled again.
Between the separators of snake case and kebab case the same words are found, whatever strategy
comes second. In title case and camel case the words stand together. There a name keeps its spelling
if no small letter follows a digit in it, and none does in a name that has been in title case.

A private field has a logical name in title case, and a logical name has a field behind it. The way
from a field to its logical name, to the field behind that, and to the logical name of this field
goes over title case twice. In title case nothing stands between the words, and the second time they
are found only where their letters tell them apart: `MaxHp` has the two words that `max_hp` has, and
`AB` is one word though `a_b` has two.

## Main definitions

* `Naming.joined` — words that are joined in the strategy's way, each by its characters
* `Text.begins`, `Text.titled` — the title case of a name without separators, from front to back
* `Text.Raised` — a text in which no small letter begins a word
* `Text.standsApart` — a word that is told from the one in front of it in title case

## Main results

* `Naming.applyChars_snake`, `Naming.applyChars_kebab` — words between separators are found again
* `Text.titled_titled` — a name in title case stays as it is where no small letter begins a word
* `Naming.raised_pascal` — in title case no small letter begins a word
* `Naming.applyChars_applyChars` — a name that was put into title case is spelled in one way only
* `Naming.apply_wireName` — a column is spelled in its strategy's own way
* `Text.titled_eq_self_iff` — words in title case stay as they are exactly where they stand apart
* `Naming.pascal_pascal_eq_iff` — the names that title case leaves as they are the second time
* `propertyName_fieldName` — the field of a logical name leads to the title case of that name
* `propertyName_fieldName_iff` — the private fields whose logical names lead back to themselves
-/

namespace TypedSheets

open Text (Ascii Kind Unbroken titleWord singles words asciiCase)

namespace Text

theorem map_toLower_map_toLower {v : List Char} (hv : Ascii v) :
    (v.map Char.toLower).map Char.toLower = v.map Char.toLower := by
  rw [List.map_map]
  exact List.map_congr_left fun c hc => (asciiCase (hv c hc)).toLower_toLower

theorem titleWord_map_toLower {v : List Char} (hv : Ascii v) :
    titleWord (v.map Char.toLower) = titleWord v := by
  cases v with
  | nil => rfl
  | cons c v =>
    obtain ⟨hc, hrest⟩ := List.forall_mem_cons.mp hv
    rw [List.map_cons, titleWord, titleWord, (asciiCase hc).toUpper_toLower,
      map_toLower_map_toLower hrest]

end Text

namespace Naming

/-! ### Words that are joined -/

/-- Words that are joined in the strategy's way, each by its characters. -/
def joined : Naming → List (List Char) → List Char
  | .pascal, vs => vs.flatMap titleWord
  | .camel, [] => []
  | .camel, v :: vs => v.map Char.toLower ++ vs.flatMap titleWord
  | .snake, vs => ['_'].intercalate (vs.map fun v => v.map Char.toLower)
  | .kebab, vs => ['-'].intercalate (vs.map fun v => v.map Char.toLower)

theorem joinWords_singles (n : Naming) {vs : List (List Char)} (hvs : ∀ v ∈ vs, Ascii v) :
    n.joinWords (vs.map singles) = n.joined vs := by
  have htitles : ∀ us : List (List Char), (∀ v ∈ us, Ascii v) →
      (us.map singles).flatMap Text.capitalized = us.flatMap titleWord := fun us hus => by
    rw [List.flatMap_map]
    exact List.flatMap_congr fun v hv => Text.capitalized_singles (hus v hv)
  have hlowers : (vs.map singles).map Text.lowered = vs.map fun v => v.map Char.toLower := by
    rw [List.map_map]
    exact List.map_congr_left fun v hv => Text.lowered_singles (hvs v hv)
  cases n with
  | pascal => exact htitles vs hvs
  | camel =>
    cases vs with
    | nil => rfl
    | cons v vs =>
      obtain ⟨hv, hrest⟩ := List.forall_mem_cons.mp hvs
      rw [List.map_cons, joinWords, joined, Text.lowered_singles hv, htitles vs hrest]
  | snake => rw [joinWords, hlowers, joined]
  | kebab => rw [joinWords, hlowers, joined]

/-- Words are joined alike after they were put into small letters. -/
theorem joined_map_toLower (n : Naming) {vs : List (List Char)} (hvs : ∀ v ∈ vs, Ascii v) :
    n.joined (vs.map fun v => v.map Char.toLower) = n.joined vs := by
  have htitles : ∀ us : List (List Char), (∀ v ∈ us, Ascii v) →
      (us.map fun v => v.map Char.toLower).flatMap titleWord = us.flatMap titleWord := by
    intro us hus
    rw [List.flatMap_map]
    exact List.flatMap_congr fun v hv => Text.titleWord_map_toLower (hus v hv)
  have hlowers : (vs.map fun v => v.map Char.toLower).map (fun v => v.map Char.toLower) =
      vs.map fun v => v.map Char.toLower := by
    rw [List.map_map]
    exact List.map_congr_left fun v hv => Text.map_toLower_map_toLower (hvs v hv)
  cases n with
  | pascal => exact htitles vs hvs
  | camel =>
    cases vs with
    | nil => rfl
    | cons v vs =>
      obtain ⟨hv, hrest⟩ := List.forall_mem_cons.mp hvs
      rw [List.map_cons, joined, joined, Text.map_toLower_map_toLower hv, htitles vs hrest]
  | snake => rw [joined, joined, hlowers]
  | kebab => rw [joined, joined, hlowers]

variable {s : List Char}

/-- Words between separators are found again, so that a second naming has the last word. -/
theorem applyChars_intercalate (n : Naming) {sep : Char} (hsep : Text.isSeparator [sep] = true)
    (hascii : sep.toNat < 0x80) {vs : List (List Char)}
    (hwords : words s = vs.map singles) (hvs : ∀ v ∈ vs, Unbroken v ∧ v ≠ []) :
    n.applyChars ([sep].intercalate (vs.map fun v => v.map Char.toLower)) = n.applyChars s := by
  have hlower : ∀ u ∈ vs.map fun v => v.map Char.toLower,
      Unbroken u ∧ u ≠ [] ∧ ∀ c ∈ u, Kind.of c ≠ .capital := by
    refine List.forall_mem_map.mpr fun v hv => ?_
    obtain ⟨hv, hne⟩ := hvs v hv
    refine ⟨hv.map_toLower, fun h => hne (List.map_eq_nil_iff.mp h), ?_⟩
    refine List.forall_mem_map.mpr fun c hc => ?_
    rw [(asciiCase (hv.ascii c hc)).of_toLower]
    exact Kind.down_ne_capital _
  have hascii' : ∀ v ∈ vs, Ascii v := fun v hv => (hvs v hv).1.ascii
  rw [applyChars, applyChars, Text.words_intercalate hsep hascii hlower, hwords,
    joinWords_singles n fun u hu => (hlower u hu).1.ascii, joinWords_singles n hascii',
    joined_map_toLower n hascii']

/-- A name in snake case or in kebab case stands for the same words. -/
theorem applyChars_snake (n : Naming) (hs : Ascii s) :
    n.applyChars (snake.applyChars s) = n.applyChars s := by
  obtain ⟨vs, hwords, hvs⟩ := Text.exists_words_eq hs
  have hsep : Text.isSeparator ['_'] = true := rfl
  have h := n.applyChars_intercalate (s := s) hsep (by decide) hwords hvs
  rwa [← joined.eq_4, ← joinWords_singles snake fun v hv => (hvs v hv).1.ascii, ← hwords] at h

theorem applyChars_kebab (n : Naming) (hs : Ascii s) :
    n.applyChars (kebab.applyChars s) = n.applyChars s := by
  obtain ⟨vs, hwords, hvs⟩ := Text.exists_words_eq hs
  have hsep : Text.isSeparator ['-'] = true := rfl
  have h := n.applyChars_intercalate (s := s) hsep (by decide) hwords hvs
  rwa [← joined.eq_5, ← joinWords_singles kebab fun v hv => (hvs v hv).1.ascii, ← hwords] at h

end Naming

namespace Text

/-- Whether a word begins in front of a text, given the character before it. -/
def begins (a : Char) : List Char → Bool
  | [] => false
  | c :: rest => Kind.divides (.of a) (.of c) (rest.head?.map .of)

/-- The rest of a name without separators in title case, given the character before it: a capital
where a word begins, and a small letter elsewhere. -/
def titled (a : Char) : List Char → List Char
  | [] => []
  | c :: rest => (if begins a (c :: rest) then c.toUpper else c.toLower) :: titled c rest

variable {s t : List Char} {a c : Char}

/-- The words of a name without separators, and its title case from them. -/
theorem exists_wordsFrom_eq (ha : a.toNat < 0x80) (ht : Ascii t)
    (hsep : ∀ c ∈ t, isSeparator [c] = false) :
    ∃ v vs,
      (∀ u, wordsFrom (some [a]) (singles u) (singles t) = singles (u ++ v) :: vs.map singles) ∧
      (∀ w ∈ v :: vs, Ascii w) ∧ (∀ w ∈ vs, w ≠ []) ∧
      titled a t = v.map Char.toLower ++ vs.flatMap titleWord := by
  induction t generalizing a with
  | nil =>
    refine ⟨[], [], fun u => ?_, by simp [Ascii], by simp, rfl⟩
    rw [List.append_nil]
    rfl
  | cons c t ih =>
    obtain ⟨hc, hrest⟩ := List.forall_mem_cons.mp ht
    obtain ⟨hsepc, hseps⟩ := List.forall_mem_cons.mp hsep
    obtain ⟨v, vs, hwords, hascii, hne, htitled⟩ := ih hc hrest hseps
    obtain ⟨hv, hvs⟩ := List.forall_mem_cons.mp hascii
    have hends : endsBetween [a] [c] (t.head?.map fun c => [c]) = begins a (c :: t) :=
      endsBetween_of_ascii ha hc fun d hd => hrest d (List.mem_of_head? hd)
    have hcv : Ascii (c :: v) := List.forall_mem_cons.mpr ⟨hc, hv⟩
    rw [titled, htitled]
    -- a word begins here, or the character goes on with the word before
    cases hbegins : begins a (c :: t) with
    | true =>
      refine ⟨[], (c :: v) :: vs, fun u => ?_, ?_, ?_, rfl⟩
      · rw [wordsFrom_singles_cons hsepc, Option.any_some, hends, hbegins, if_pos rfl, hwords,
          List.append_nil]
        rfl
      · exact List.forall_mem_cons.mpr ⟨unbroken_nil.ascii, List.forall_mem_cons.mpr ⟨hcv, hvs⟩⟩
      · exact List.forall_mem_cons.mpr ⟨List.cons_ne_nil c v, hne⟩
    | false =>
      refine ⟨c :: v, vs, fun u => ?_, List.forall_mem_cons.mpr ⟨hcv, hvs⟩, hne, rfl⟩
      rw [wordsFrom_singles_cons hsepc, Option.any_some, hends, hbegins, if_neg Bool.false_ne_true,
        hwords, List.append_assoc, List.singleton_append]

end Text

namespace Naming

open Text (titled)

/-- The title case and the camel case of a name without separators differ in front only. -/
theorem applyChars_cons {c : Char} {t : List Char} (hs : Ascii (c :: t))
    (hsep : ∀ d ∈ c :: t, Text.isSeparator [d] = false) :
    pascal.applyChars (c :: t) = c.toUpper :: titled c t ∧
      camel.applyChars (c :: t) = c.toLower :: titled c t := by
  obtain ⟨hc, ht⟩ := List.forall_mem_cons.mp hs
  obtain ⟨hsepc, hseps⟩ := List.forall_mem_cons.mp hsep
  obtain ⟨v, vs, hwords, hascii, hne, htitled⟩ := Text.exists_wordsFrom_eq hc ht hseps
  obtain ⟨hv, hvs⟩ := List.forall_mem_cons.mp hascii
  have hall : ∀ w ∈ (c :: v) :: vs, Ascii w :=
    List.forall_mem_cons.mpr ⟨List.forall_mem_cons.mpr ⟨hc, hv⟩, hvs⟩
  -- no word is empty, so the filter of `words` leaves out none
  have heq : words (c :: t) = ((c :: v) :: vs).map singles := by
    have hstart : Text.wordsFrom none [] (singles (c :: t)) =
        Text.wordsFrom (some [c]) (singles [c]) (singles t) :=
      Text.wordsFrom_singles_cons (u := []) hsepc
    have hfilter : ∀ w ∈ ((c :: v) :: vs).map singles, (!w.isEmpty) = true := by
      refine List.forall_mem_map.mpr (List.forall_mem_cons.mpr ⟨rfl, fun w hw => ?_⟩)
      simpa [singles] using hne w hw
    rw [words, Text.clusters_of_plain hs.plain, ← singles, hstart, hwords, List.singleton_append,
      ← List.map_cons (f := singles), List.filter_eq_self.mpr hfilter]
  rw [applyChars, applyChars, heq, joinWords_singles _ hall, joinWords_singles _ hall, joined,
    joined, htitled]
  exact ⟨rfl, rfl⟩

end Naming

namespace Text

/-! ### Spelling twice -/

/-- No small letter begins a word. -/
structure Raised (s : List Char) : Prop where
  head : ∀ c ∈ s.head?, Kind.of c ≠ .small
  chain : s.IsChain fun x y => Kind.of x = .digit → Kind.of y ≠ .small

variable {a' : Char}

theorem of_titled (hc : c.toNat < 0x80) (rest : List Char) :
    Kind.of (if begins a (c :: rest) then c.toUpper else c.toLower) =
      Kind.titled (.of a) (.of c) (rest.head?.map .of) := by
  rw [begins, Kind.titled]
  split
  · exact (asciiCase hc).of_toUpper
  · exact (asciiCase hc).of_toLower

/-- Words begin where they began before. -/
theorem begins_titled (ht : Ascii t)
    (hchain : (a :: t).IsChain fun x y => Kind.of x = .digit → Kind.of y ≠ .small)
    (hrespells : Kind.Respells (.of a) (.of a')) : begins a' (titled a t) = begins a t := by
  cases t with
  | nil => rfl
  | cons c t =>
    obtain ⟨hc, ht⟩ := List.forall_mem_cons.mp ht
    have hkind := (List.isChain_cons_cons.mp hchain).1
    cases t with
    | nil =>
      rw [titled, begins, of_titled hc]
      exact Kind.divides_titled_none _ _ _ hrespells hkind
    | cons d t =>
      obtain ⟨hd, -⟩ := List.forall_mem_cons.mp ht
      rw [titled, begins, of_titled hc, titled, List.head?_cons, List.head?_cons, Option.map_some,
        Option.map_some, of_titled hd]
      exact Kind.divides_titled_some _ _ _ _ _ hrespells hkind

/-- A name in title case stays as it is where no small letter begins a word. -/
theorem titled_titled (ht : Ascii t)
    (hchain : (a :: t).IsChain fun x y => Kind.of x = .digit → Kind.of y ≠ .small)
    (hrespells : Kind.Respells (.of a) (.of a')) : titled a' (titled a t) = titled a t := by
  -- the spelling is read once more from letters of the other case: where it begins words is kept
  induction t generalizing a a' with
  | nil => rfl
  | cons c t ih =>
    have hbegins := begins_titled ht hchain hrespells
    obtain ⟨hc, ht⟩ := List.forall_mem_cons.mp ht
    obtain ⟨hkind, htail⟩ := List.isChain_cons_cons.mp hchain
    rw [titled] at hbegins ⊢
    rw [titled, hbegins]
    cases hb : begins a (c :: t) with
    | true =>
      have hraised : Kind.of c ≠ .small := Kind.ne_small_of_divides _ _ _ hb hkind
      rw [if_pos rfl, if_pos rfl, (asciiCase hc).toUpper_toUpper, ih ht htail]
      rw [(asciiCase hc).of_toUpper]
      exact Kind.respells_up _ hraised
    | false =>
      rw [if_neg Bool.false_ne_true, if_neg Bool.false_ne_true, (asciiCase hc).toLower_toLower,
        ih ht htail]
      rw [(asciiCase hc).of_toLower]
      exact Kind.respells_down _

/-- In title case a name has the characters that it had, each as a capital or in small. -/
theorem exists_of_mem_titled {d : Char} (hd : d ∈ titled a t) :
    ∃ c ∈ t, d = c.toUpper ∨ d = c.toLower := by
  induction t generalizing a with
  | nil => cases hd
  | cons c t ih =>
    rw [titled] at hd
    rcases List.mem_cons.mp hd with rfl | hd
    · refine ⟨c, List.mem_cons_self, ?_⟩
      split
      · exact .inl rfl
      · exact .inr rfl
    · obtain ⟨e, he, h⟩ := ih hd
      exact ⟨e, List.mem_cons_of_mem _ he, h⟩

theorem exists_of_mem_titleWord {v : List Char} {d : Char} (hd : d ∈ titleWord v) :
    ∃ c ∈ v, d = c.toUpper ∨ d = c.toLower := by
  cases v with
  | nil => cases hd
  | cons c v =>
    rcases List.mem_cons.mp hd with rfl | hd
    · exact ⟨c, List.mem_cons_self, .inl rfl⟩
    · obtain ⟨e, he, rfl⟩ := List.mem_map.mp hd
      exact ⟨e, List.mem_cons_of_mem _ he, .inr rfl⟩

/-- Neither case makes a separator, or a character that is not ASCII. -/
theorem ascii_of_recased {d : Char} (hc : c.toNat < 0x80) (hsep : isSeparator [c] = false)
    (hd : d = c.toUpper ∨ d = c.toLower) : d.toNat < 0x80 ∧ isSeparator [d] = false := by
  have h := asciiCase hc
  rcases hd with rfl | rfl
  · exact ⟨h.ascii_toUpper, h.separator_toUpper.trans hsep⟩
  · exact ⟨h.ascii_toLower, h.separator_toLower.trans hsep⟩

/-- Words in title case begin with capitals. -/
theorem raised_flatMap {vs : List (List Char)} (hvs : ∀ v ∈ vs, Unbroken v ∧ v ≠ []) :
    Raised (vs.flatMap titleWord) := by
  induction vs with
  | nil => exact ⟨fun c hc => absurd hc (Option.not_mem_none c), .nil⟩
  | cons v vs ih =>
    obtain ⟨⟨hv, hne⟩, hrest⟩ := List.forall_mem_cons.mp hvs
    obtain ⟨hhead, hchain⟩ := ih hrest
    obtain ⟨c, v, rfl⟩ := List.exists_cons_of_ne_nil hne
    obtain ⟨hc, htail⟩ := List.forall_mem_cons.mp hv.ascii
    -- within a word a digit is followed by no small letter, or the word would end there
    have hword :
        (titleWord (c :: v)).IsChain fun x y => Kind.of x = .digit → Kind.of y ≠ .small := by
      refine .cons ((List.isChain_map _).mpr
        (hv.unmixed.tail.imp_of_mem_imp fun x y hx hy hmix => ?_)) fun y hy => ?_
      · rw [(asciiCase (htail x hx)).of_toLower, (asciiCase (htail y hy)).of_toLower]
        exact (Kind.ne_small_of_not_mixes _ _ hmix).1
      · rw [List.head?_map, Option.mem_map] at hy
        obtain ⟨d, hd, rfl⟩ := hy
        rw [(asciiCase hc).of_toUpper, (asciiCase (htail d (List.mem_of_head? hd))).of_toLower]
        exact (Kind.ne_small_of_not_mixes _ _ (hv.unmixed.rel_head? hd)).2
    rw [List.flatMap_cons]
    refine ⟨fun d hd => ?_, hword.append hchain fun x _ y hy _ => hhead y hy⟩
    obtain rfl : c.toUpper = d := Option.some.inj hd
    rw [(asciiCase hc).of_toUpper]
    exact Kind.up_ne_small _

end Text

namespace Naming

open Text (titled)

variable {s : List Char}

theorem exists_joined (hs : Ascii s) : ∃ vs : List (List Char), (∀ v ∈ vs, Unbroken v ∧ v ≠ []) ∧
    words s = vs.map singles ∧ ∀ n : Naming, n.applyChars s = n.joined vs := by
  obtain ⟨vs, hwords, hvs⟩ := Text.exists_words_eq hs
  refine ⟨vs, hvs, hwords, fun n => ?_⟩
  rw [applyChars, hwords, joinWords_singles n fun v hv => (hvs v hv).1.ascii]

theorem raised_pascal (hs : Ascii s) : Text.Raised (pascal.applyChars s) := by
  obtain ⟨vs, hvs, -, hjoined⟩ := exists_joined hs
  rw [hjoined]
  exact Text.raised_flatMap hvs

theorem noSeparator_pascal (hs : Ascii s) :
    ∀ c ∈ pascal.applyChars s, Text.isSeparator [c] = false := by
  obtain ⟨vs, hvs, -, hjoined⟩ := exists_joined hs
  intro c hc
  rw [hjoined] at hc
  obtain ⟨v, hv, hc⟩ := List.mem_flatMap.mp hc
  obtain ⟨d, hd, h⟩ := Text.exists_of_mem_titleWord hc
  exact (Text.ascii_of_recased ((hvs v hv).1.ascii d hd) ((hvs v hv).1.noSeparator d hd) h).2

/-- A name that was put into title case is a fixed point. -/
theorem applyChars_applyChars (n : Naming) {p : List Char} (hp : Ascii p) (hraised : Text.Raised p)
    (hsep : ∀ c ∈ p, Text.isSeparator [c] = false) :
    n.applyChars (n.applyChars p) = n.applyChars p := by
  cases p with
  | nil => cases n <;> rfl
  | cons c t =>
    obtain ⟨hpascal, hcamel⟩ := applyChars_cons hp hsep
    obtain ⟨hc, ht⟩ := List.forall_mem_cons.mp hp
    obtain ⟨hsepc, hseps⟩ := List.forall_mem_cons.mp hsep
    have hmem : ∀ d ∈ titled c t, d.toNat < 0x80 ∧ Text.isSeparator [d] = false := fun d hd => by
      obtain ⟨e, he, h⟩ := Text.exists_of_mem_titled hd
      exact Text.ascii_of_recased (ht e he) (hseps e he) h
    -- the first pass leaves characters that a second pass may be applied to
    have hagain : ∀ d : Char, d = c.toUpper ∨ d = c.toLower →
        pascal.applyChars (d :: titled c t) = d.toUpper :: titled d (titled c t) ∧
        camel.applyChars (d :: titled c t) = d.toLower :: titled d (titled c t) := fun d hd => by
      have hd := Text.ascii_of_recased hc hsepc hd
      exact applyChars_cons (List.forall_mem_cons.mpr ⟨hd.1, fun e he => (hmem e he).1⟩)
        (List.forall_mem_cons.mpr ⟨hd.2, fun e he => (hmem e he).2⟩)
    have hcase := asciiCase hc
    cases n with
    | pascal =>
      rw [hpascal, (hagain _ (.inl rfl)).1, hcase.toUpper_toUpper,
        Text.titled_titled ht hraised.chain]
      rw [hcase.of_toUpper]
      exact Kind.respells_up _ (hraised.head c rfl)
    | camel =>
      rw [hcamel, (hagain _ (.inr rfl)).2, hcase.toLower_toLower,
        Text.titled_titled ht hraised.chain]
      rw [hcase.of_toLower]
      exact Kind.respells_down _
    | snake => exact applyChars_snake snake hp
    | kebab => exact applyChars_kebab kebab hp

/-- The name in which a member is looked up: without its private prefix, if it has one. -/
theorem ascii_strip {declared : String} (h : Ascii declared.toList) :
    Ascii ((stripFieldPrefix? declared).getD declared).toList := by
  cases hstrip : stripFieldPrefix? declared with
  | none => exact h
  | some rest => exact fun c hc => h c (mem_of_stripFieldPrefix? hstrip c hc)

/-- The column of a member is spelled in its strategy's own way, so that spelling it once more
leaves it as it is. -/
theorem apply_wireName (n : Naming) {declared : String} (h : Ascii declared.toList) :
    n.apply (n.wireName declared) = n.wireName declared := by
  have hrest := ascii_strip h
  rw [← String.toList_inj, wireName, toList_apply, toList_apply, propertyName, toList_apply]
  exact n.applyChars_applyChars (ascii_pascal hrest) (raised_pascal hrest)
    (noSeparator_pascal hrest)

theorem apply_wireName_member : Ascii "m_a_b2CDe".toList ∧
    camel.apply (camel.wireName "m_a_b2CDe") = camel.wireName "m_a_b2CDe" :=
  ⟨by decide, camel.apply_wireName (by decide)⟩

example : camel.wireName "m_a_b2CDe" = "ab2CDe" := by decide

end Naming

end TypedSheets

/-! ## From a field to its logical name and back -/

namespace TypedSheets

open Text (Ascii Cluster Kind Unbroken titleWord singles words asciiCase titled begins)

namespace Text

/-- Whether a character is a letter that has case. -/
def isLetter (c : Cluster) : Bool := isUpperCase c || isLowerCase c

/-- Whether a word is told from the one in front of it in title case, where nothing stands between
them: it follows a digit, or it follows a letter and one of the two words has more letters there. A
word that begins with no letter is the same in either case and need not be told. -/
def standsApart (v w : List Cluster) : Bool :=
  !w.head?.any isLetter || v.getLast?.any isDigits ||
    (v.getLast?.any isLetter && (1 < v.length || w.tail.head?.any isLetter))

theorem Kind.divides_up_iff : ∀ (last first : Kind) (isLong : Bool) (second next : Option Kind),
    (∀ k ∈ second, next = some k.down) → (second = none → next ≠ some .small) →
    ((divides (if isLong then last.down else last.up) first.up next = true ∨
        first.isLetter = false) ↔
      (!first.isLetter || last = .digit || (last.isLetter && (isLong || second.any isLetter))) =
        true) := by
  decide

theorem isLetter_singleton {c : Char} (hc : c.toNat < 0x80) :
    isLetter [c] = (Kind.of c).isLetter := by
  rw [isLetter, (asciiCase hc).upper, (asciiCase hc).lower]
  generalize Kind.of c = k
  revert k
  decide

theorem standsApart_singles {v w : List Char} {l d : Char} (hl : l.toNat < 0x80)
    (hw : Ascii (d :: w)) (hlast : v.getLast? = some l) :
    standsApart (singles v) (singles (d :: w)) =
      (!(Kind.of d).isLetter || Kind.of l = .digit ||
        ((Kind.of l).isLetter && (1 < v.length || (w.head?.map Kind.of).any Kind.isLetter))) := by
  obtain ⟨hd, hw⟩ := List.forall_mem_cons.mp hw
  have hlast' : (singles v).getLast? = some [l] := by
    rw [singles, List.getLast?_map, hlast, Option.map_some]
  have hsecond : (singles w).head?.any isLetter = (w.head?.map Kind.of).any Kind.isLetter := by
    rw [singles, List.head?_map]
    cases w with
    | nil => rfl
    | cons e w => exact isLetter_singleton (hw e List.mem_cons_self)
  have hlength : (singles v).length = v.length := List.length_map _
  rw [standsApart, hlast', hlength]
  simp only [singles, List.map_cons, List.head?_cons, List.tail_cons, Option.any_some]
  rw [← singles, hsecond, isLetter_singleton hd, isLetter_singleton hl, (asciiCase hl).digit]

variable {d : Char} {v : List Char}

theorem Unbroken.tail (hv : Unbroken (d :: v)) : Unbroken v :=
  ⟨fun c hc => hv.ascii c (List.mem_cons_of_mem _ hc),
    fun c hc => hv.noSeparator c (List.mem_cons_of_mem _ hc), hv.unmixed.tail⟩

theorem Unbroken.mixes_toUpper (hv : Unbroken (d :: v)) :
    ∀ c ∈ v.head?, Kind.mixes (.of d.toUpper) (.of c) = false := fun c hc => by
  rw [(asciiCase (hv.ascii d List.mem_cons_self)).of_toUpper, Kind.mixes_up_left,
    hv.unmixed.rel_head? hc]

/-- In a word that is in title case no word begins behind its first character. -/
theorem titled_append {a : Char} {v t : List Char} (ha : a.toNat < 0x80) (hv : Unbroken v)
    (hmix : ∀ c ∈ v.head?, Kind.mixes (.of a) (.of c) = false) :
    titled a (v.map Char.toLower ++ t) =
      v.map Char.toLower ++
        titled ((a :: v.map Char.toLower).getLast (List.cons_ne_nil _ _)) t := by
  induction v generalizing a with
  | nil => rfl
  | cons c v ih =>
    obtain ⟨hc, hrest⟩ := List.forall_mem_cons.mp hv.ascii
    have htail : Unbroken v :=
      ⟨hrest, fun d hd => hv.noSeparator d (List.mem_cons_of_mem _ hd), hv.unmixed.tail⟩
    have hmix' : ∀ d ∈ v.head?, Kind.mixes (.of c.toLower) (.of d) = false := fun d hd => by
      rw [(asciiCase hc).of_toLower, Kind.mixes_down_left, hv.unmixed.rel_head? hd]
    -- a lowered letter follows the letter before it inside one word
    have hbegins : begins a (c.toLower :: (v.map Char.toLower ++ t)) = false := by
      rw [begins, (asciiCase hc).of_toLower]
      refine Kind.divides_of_ne_capital _ _ _ (Kind.down_ne_capital _) ?_
      rw [Kind.mixes_down_right, hmix c rfl]
    rw [List.map_cons, List.cons_append, titled, hbegins, if_neg Bool.false_ne_true,
      (asciiCase hc).toLower_toLower, ih (asciiCase hc).ascii_toLower htail hmix',
      List.getLast_cons (List.cons_ne_nil _ _)]
    rfl

/-- The kind of the last character of a word in title case. -/
theorem of_getLast_titleWord {d l : Char} {w : List Char} (hw : Ascii (d :: w))
    (hlast : (d :: w).getLast? = some l) :
    Kind.of ((d.toUpper :: w.map Char.toLower).getLast (List.cons_ne_nil _ _)) =
      if 1 < (d :: w).length then (Kind.of l).down else (Kind.of l).up := by
  obtain ⟨hd, hw⟩ := List.forall_mem_cons.mp hw
  cases w with
  | nil =>
    obtain rfl : d = l := Option.some.inj hlast
    exact (asciiCase hd).of_toUpper
  | cons e w =>
    rw [List.getLast?_cons_cons] at hlast
    have hl : (e :: w).getLast (List.cons_ne_nil e w) = l := by
      rw [List.getLast?_eq_some_getLast (List.cons_ne_nil e w)] at hlast
      exact Option.some.inj hlast
    rw [List.getLast_cons (by simp), List.getLast_map, hl, if_pos (by simp),
      (asciiCase (hw l (List.mem_of_getLast? hlast))).of_toLower]

/-- Whether a word that follows another in title case stays as it is. -/
theorem recased_eq_self_iff {a l d : Char} {v w t : List Char} (hl : l.toNat < 0x80)
    (hw : Ascii (d :: w)) (hlast : v.getLast? = some l)
    (hkind : Kind.of a = if 1 < v.length then (Kind.of l).down else (Kind.of l).up)
    (ht : ∀ c ∈ t.head?, Kind.of c ≠ .small) :
    (if begins a (d.toUpper :: (w.map Char.toLower ++ t)) then d.toUpper.toUpper
      else d.toUpper.toLower) = d.toUpper ↔ standsApart (singles v) (singles (d :: w)) = true := by
  obtain ⟨hd, hrest⟩ := List.forall_mem_cons.mp hw
  have hcase := asciiCase hd
  have hupper := asciiCase hcase.ascii_toUpper
  -- what has no case is right either way; a letter is only where a word begins
  have hhead : (if begins a (d.toUpper :: (w.map Char.toLower ++ t)) then d.toUpper.toUpper
      else d.toUpper.toLower) = d.toUpper ↔
      begins a (d.toUpper :: (w.map Char.toLower ++ t)) = true ∨ (Kind.of d).isLetter = false := by
    split
    · next h => simp [h, hcase.toUpper_toUpper]
    · next h =>
      rw [hupper.toLower_eq_iff, hcase.of_toUpper, Kind.up_ne_capital_iff]
      simp [h]
  rw [hhead, standsApart_singles hl hw hlast, begins, hkind, hcase.of_toUpper]
  have hiff := Kind.divides_up_iff (.of l) (.of d) (1 < v.length) (w.head?.map Kind.of)
    ((w.map Char.toLower ++ t).head?.map Kind.of) ?_ ?_
  · simpa using hiff
  · intro k hk
    cases w with
    | nil => cases hk
    | cons e w =>
      obtain rfl := Option.some.inj hk
      exact congrArg some (asciiCase (hrest e List.mem_cons_self)).of_toLower
  · intro hnone hsmall
    cases w with
    | nil =>
      obtain ⟨c, hc, hkind⟩ := Option.map_eq_some_iff.mp hsmall
      exact ht c hc hkind
    | cons e w => cases hnone

/-- Words in title case stay as they are the second time exactly where they stand apart. -/
theorem titled_eq_self_iff {d : Char} {q : List Char} {ws : List (List Char)}
    (hv : Unbroken (d :: q)) (hws : ∀ w ∈ ws, Unbroken w ∧ w ≠ []) :
    titled d.toUpper (q.map Char.toLower ++ ws.flatMap titleWord) =
        q.map Char.toLower ++ ws.flatMap titleWord ↔
      (((d :: q) :: ws).map singles).IsChain fun v w => standsApart v w = true := by
  induction ws generalizing d q with
  | nil =>
    obtain ⟨hd, -⟩ := List.forall_mem_cons.mp hv.ascii
    rw [titled_append (asciiCase hd).ascii_toUpper hv.tail hv.mixes_toUpper]
    simp [titled]
  | cons w ws ih =>
    obtain ⟨⟨hw, hne⟩, hrest⟩ := List.forall_mem_cons.mp hws
    obtain ⟨e, r, rfl⟩ := List.exists_cons_of_ne_nil hne
    obtain ⟨hd, -⟩ := List.forall_mem_cons.mp hv.ascii
    obtain ⟨l, hl⟩ : ∃ l, (d :: q).getLast? = some l :=
      ⟨_, List.getLast?_eq_some_getLast (List.cons_ne_nil d q)⟩
    rw [titled_append (asciiCase hd).ascii_toUpper hv.tail hv.mixes_toUpper,
      List.append_cancel_left_eq, List.flatMap_cons, titleWord, List.cons_append, titled,
      List.cons.injEq, recased_eq_self_iff (hv.ascii l (List.mem_of_getLast? hl)) hw.ascii hl
        (of_getLast_titleWord hv.ascii hl) (raised_flatMap hrest).head, ih hw hrest,
      List.map_cons, List.map_cons, List.map_cons, List.isChain_cons_cons]

end Text

namespace Naming

/-- A name in title case is in title case once more exactly where its words stand apart. -/
theorem pascal_pascal_eq_iff {s : List Char} (hs : Ascii s) :
    pascal.applyChars (pascal.applyChars s) = pascal.applyChars s ↔
      (words s).IsChain fun v w => Text.standsApart v w = true := by
  obtain ⟨vs, hvs, hwords, hjoined⟩ := exists_joined hs
  rw [hwords]
  cases vs with
  | nil =>
    have hnil : pascal.applyChars s = [] := hjoined pascal
    simp only [hnil, List.map_nil, List.isChain_nil, iff_true]
    rfl
  | cons v vs =>
    obtain ⟨⟨hv, hne⟩, hrest⟩ := List.forall_mem_cons.mp hvs
    obtain ⟨d, q, rfl⟩ := List.exists_cons_of_ne_nil hne
    obtain ⟨hd, -⟩ := List.forall_mem_cons.mp hv.ascii
    have hp := ascii_pascal hs
    have hsep := noSeparator_pascal hs
    have hcons : pascal.applyChars s =
        d.toUpper :: (q.map Char.toLower ++ vs.flatMap titleWord) := hjoined pascal
    rw [hcons] at hp hsep ⊢
    rw [(applyChars_cons hp hsep).1, (asciiCase hd).toUpper_toUpper, List.cons.injEq,
      Text.titled_eq_self_iff hv hrest]
    exact and_iff_right rfl

end Naming

/-- A name without underscores has no private prefix. -/
theorem stripFieldPrefix?_of_not_mem {declared : String} (h : '_' ∉ declared.toList) :
    stripFieldPrefix? declared = none := by
  have hdrop : ∀ p ∈ fieldPrefixes, dropStart? p.toList declared.toList = none := by
    intro p hp
    have hmem : '_' ∈ p.toList := by
      revert p
      decide
    rw [dropStart?, if_neg fun hstart => h ((List.isPrefixOf_iff_prefix.mp hstart).subset hmem)]
  rw [stripFieldPrefix?, List.findSome?_eq_none_iff.mpr hdrop]

/-- The logical name of a name in title case. -/
theorem propertyName_pascal {s : String} (hs : Ascii s.toList) :
    propertyName (Naming.pascal.apply s) = Naming.pascal.apply (Naming.pascal.apply s) := by
  have hmem : '_' ∉ (Naming.pascal.apply s).toList := fun h => by
    rw [Naming.toList_apply] at h
    exact absurd (Naming.noSeparator_pascal hs _ h) (by decide)
  rw [propertyName, stripFieldPrefix?_of_not_mem hmem, Option.getD_none]

/-- The field of a logical name leads to the title case of that name. -/
theorem propertyName_fieldName {s : String} (hs : Ascii s.toList) :
    propertyName (fieldName s) = Naming.pascal.apply s := by
  have htext : (fieldName s).toList = '_' :: Naming.snake.applyChars s.toList := by
    rw [fieldName, String.toList_append, Naming.toList_apply]
    rfl
  have hsnake := Naming.applyChars_snake .pascal hs
  rw [propertyName, ← String.toList_inj, Naming.toList_apply, Naming.toList_apply, ← hsnake]
  -- nothing is left to strip where the name has no words
  cases hrest : Naming.snake.applyChars s.toList with
  | nil =>
    have hstrip : stripFieldPrefix? (fieldName s) = none := by
      rw [stripFieldPrefix?, htext, hrest]
      rfl
    rw [hstrip, Option.getD_none, htext, hrest]
    rfl
  | cons c rest =>
    have hstrip : stripFieldPrefix? (fieldName s) = some (String.ofList (c :: rest)) := by
      rw [stripFieldPrefix?, htext, hrest]
      rfl
    rw [hstrip, Option.getD_some, String.toList_ofList]

/-- The field behind the logical name of a private field leads back to the same logical name exactly
where no two words of the name run together. In any case it leads to what title case makes of the
logical name. -/
theorem propertyName_fieldName_iff {declared rest : String} (h : Ascii declared.toList)
    (hprivate : stripFieldPrefix? declared = some rest) :
    let p := propertyName declared
    propertyName (fieldName p) = propertyName p ∧
      ((propertyName (fieldName p) = p ∧ propertyName p = p) ↔
        (words rest.toList).IsChain fun v w => Text.standsApart v w = true) := by
  have hrest : Ascii rest.toList := fun c hc => h c (mem_of_stripFieldPrefix? hprivate c hc)
  have hname : propertyName declared = Naming.pascal.apply rest := by
    rw [propertyName, hprivate, Option.getD_some]
  have hpascal : Ascii (Naming.pascal.apply rest).toList := by
    rw [Naming.toList_apply]
    exact Naming.ascii_pascal hrest
  simp only [hname, propertyName_pascal hrest, propertyName_fieldName hpascal, and_self, true_and]
  rw [← Naming.pascal_pascal_eq_iff hrest, ← String.toList_inj, Naming.toList_apply,
    Naming.toList_apply]

theorem propertyName_fieldName_max_hp :
    (Ascii "_max_hp".toList ∧ stripFieldPrefix? "_max_hp" = some "max_hp") ∧
      let p := propertyName "_max_hp"
      propertyName (fieldName p) = p ∧ propertyName p = p :=
  ⟨by decide, (propertyName_fieldName_iff (by decide) (show _ = some "max_hp" by decide)).2.mpr
    (by decide)⟩

/-- Words of one letter run together: the logical name `AB` of `_a_b` is taken for one word. -/
theorem propertyName_fieldName_ne : Ascii "_a_b".toList ∧ stripFieldPrefix? "_a_b" = some "a_b" ∧
    let p := propertyName "_a_b"
    p = "AB" ∧ propertyName (fieldName p) = "Ab" ∧ propertyName p = "Ab" := by
  decide +kernel

end TypedSheets
