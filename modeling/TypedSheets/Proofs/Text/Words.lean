import Mathlib.Data.Fintype.Option
import Mathlib.Data.List.Chain
import Mathlib.Data.List.Flatten
import TypedSheets.Proofs.Naming
import TypedSheets.Proofs.Text.Parts

/-!
# The words of an ASCII name

A word ends where it does because of what the characters around that place are: capitals, small
letters, digits or anything else. In no word of an ASCII name a letter stands next to a digit. Words
that hold no capitals are found again where a separator joins them.

## Main definitions

* `Text.Kind` — what a character is to the words of a name
* `Text.Kind.divides` — where a word ends, by kinds
* `Text.AsciiCase` — what the case of an ASCII character comes to
* `Text.Unbroken` — what may stand in one word
* `Text.titleWord` — a word in title case

## Main results

* `Text.asciiCase` — every ASCII character has its kind in either case
* `Text.endsBetween_of_ascii` — where a word ends depends on kinds only
* `Text.exists_words_eq` — the words of an ASCII name are unbroken and not empty
* `Text.words_intercalate` — words without capitals are found again between separators
-/

namespace TypedSheets.Text

/-- What a character is to the words of a name. -/
inductive Kind where
  | capital
  | small
  | digit
  | mark
  deriving DecidableEq

namespace Kind

instance : Fintype Kind := ⟨{capital, small, digit, mark}, by intro k; cases k <;> decide⟩

/-- The kind of a character. -/
def of (c : Char) : Kind :=
  if c.isUpper then .capital else if c.isLower then .small else if c.isDigit then .digit else .mark

/-- Whether it is a letter. -/
def isLetter : Kind → Bool
  | .capital | .small => true
  | .digit | .mark => false

/-- The kind of the capital. -/
def up : Kind → Kind
  | .small => .capital
  | k => k

/-- The kind of the small letter. -/
def down : Kind → Kind
  | .capital => .small
  | k => k

/-- Whether a word ends between two characters, with the next one behind them. -/
def divides : Kind → Kind → Option Kind → Bool
  | .small, .capital, _ | .small, .digit, _ => true
  | .capital, .digit, _ => true
  | .digit, .capital, _ | .digit, .small, _ => true
  | .capital, .capital, some .small => true
  | _, _, _ => false

/-- Whether one is a letter and the other a digit. -/
def mixes (x y : Kind) : Bool := (x.isLetter && y = .digit) || (x = .digit && y.isLetter)

theorem divides_of_mixes : ∀ (x y : Kind) (next : Option Kind), mixes x y = true →
    divides x y next = true := by
  decide

/-- Without a capital only letters and digits are divided from each other. -/
theorem divides_of_ne_capital : ∀ (x y : Kind) (next : Option Kind), y ≠ .capital →
    mixes x y = false → divides x y next = false := by
  decide

theorem down_ne_capital : ∀ x : Kind, x.down ≠ .capital := by
  decide

theorem up_ne_small : ∀ x : Kind, x.up ≠ .small := by
  decide

theorem ne_small_of_not_mixes : ∀ x y : Kind, mixes x y = false →
    (x.down = .digit → y.down ≠ .small) ∧ (x.up = .digit → y.down ≠ .small) := by
  decide

theorem up_ne_capital_iff : ∀ x : Kind, x.up ≠ .capital ↔ x.isLetter = false := by
  decide

theorem mixes_down_left : ∀ x y : Kind, mixes x.down y = mixes x y := by
  decide

theorem mixes_up_left : ∀ x y : Kind, mixes x.up y = mixes x y := by
  decide

theorem mixes_down_right : ∀ x y : Kind, mixes x y.down = mixes x y := by
  decide

/-- What becomes of the kind of a character that is spelled again, where no small letter becomes a
capital. -/
def Respells (x x' : Kind) : Prop := x' = x ∨ (x = .capital ∧ x' = .small)

instance (x x' : Kind) : Decidable (Respells x x') := inferInstanceAs (Decidable (_ ∨ _))

theorem respells_down : ∀ x : Kind, Respells x x.down := by
  decide

theorem respells_up : ∀ x : Kind, x ≠ .small → Respells x x.up := by
  decide

/-- The kind of a character in title case. -/
def titled (x y : Kind) (next : Option Kind) : Kind := if divides x y next then y.up else y.down

theorem divides_titled_none : ∀ x x' y : Kind, Respells x x' → (x = .digit → y ≠ .small) →
    divides x' (titled x y none) none = divides x y none := by
  decide

theorem divides_titled_some : ∀ (x x' y z : Kind) (next : Option Kind), Respells x x' →
    (x = .digit → y ≠ .small) →
    divides x' (titled x y (some z)) (some (titled y z next)) = divides x y (some z) := by
  decide

/-- A small letter begins a word behind a digit only. -/
theorem ne_small_of_divides : ∀ (x y : Kind) (next : Option Kind), divides x y next = true →
    (x = .digit → y ≠ .small) → y ≠ .small := by
  decide

end Kind

/-! ### ASCII characters -/

/-- What the case of an ASCII character comes to. -/
structure AsciiCase (c : Char) : Prop where
  upper : isUpperCase [c] = decide (Kind.of c = .capital)
  lower : isLowerCase [c] = decide (Kind.of c = .small)
  digit : isDigits [c] = decide (Kind.of c = .digit)
  of_toUpper : Kind.of c.toUpper = (Kind.of c).up
  of_toLower : Kind.of c.toLower = (Kind.of c).down
  small_eq : small c = c.toLower
  toUpper_toLower : c.toLower.toUpper = c.toUpper
  toLower_toLower : c.toLower.toLower = c.toLower
  toUpper_toUpper : c.toUpper.toUpper = c.toUpper
  toLower_eq_iff : c.toLower = c ↔ Kind.of c ≠ .capital
  separator_toUpper : isSeparator [c.toUpper] = isSeparator [c]
  separator_toLower : isSeparator [c.toLower] = isSeparator [c]
  ascii_toUpper : c.toUpper.toNat < 0x80
  ascii_toLower : c.toLower.toNat < 0x80

theorem asciiCase {c : Char} (h : c.toNat < 0x80) : AsciiCase c := by
  have hall : ∀ n : Fin 0x80,
      let c := Char.ofNat n
      isUpperCase [c] = decide (Kind.of c = .capital) ∧
      isLowerCase [c] = decide (Kind.of c = .small) ∧
      isDigits [c] = decide (Kind.of c = .digit) ∧
      Kind.of c.toUpper = (Kind.of c).up ∧
      Kind.of c.toLower = (Kind.of c).down ∧
      small c = c.toLower ∧
      c.toLower.toUpper = c.toUpper ∧
      c.toLower.toLower = c.toLower ∧
      c.toUpper.toUpper = c.toUpper ∧
      (c.toLower = c ↔ Kind.of c ≠ .capital) ∧
      isSeparator [c.toUpper] = isSeparator [c] ∧
      isSeparator [c.toLower] = isSeparator [c] ∧
      c.toUpper.toNat < 0x80 ∧ c.toLower.toNat < 0x80 := by decide +kernel
  have hc := hall ⟨c.toNat, h⟩
  simp only [Char.ofNat_toNat] at hc
  obtain ⟨h₁, h₂, h₃, h₄, h₅, h₆, h₇, h₈, h₉, h₁₀, h₁₁, h₁₂, h₁₃, h₁₄⟩ := hc
  exact ⟨h₁, h₂, h₃, h₄, h₅, h₆, h₇, h₈, h₉, h₁₀, h₁₁, h₁₂, h₁₃, h₁₄⟩

/-- Where a word of an ASCII name ends depends on kinds only. -/
theorem endsBetween_of_ascii {a b : Char} {next : Option Char} (ha : a.toNat < 0x80)
    (hb : b.toNat < 0x80) (hnext : ∀ c ∈ next, c.toNat < 0x80) :
    endsBetween [a] [b] (next.map fun c => [c]) =
      Kind.divides (.of a) (.of b) (next.map Kind.of) := by
  have hsmall : (next.map fun c => [c]).any isLowerCase =
      (next.map Kind.of).any fun k => k = .small := by
    cases next with
    | none => rfl
    | some c => exact (asciiCase (hnext c rfl)).lower
  rw [endsBetween, (asciiCase ha).lower, (asciiCase ha).upper, (asciiCase ha).digit,
    (asciiCase hb).lower, (asciiCase hb).upper, (asciiCase hb).digit, hsmall]
  generalize Kind.of a = x, Kind.of b = y, next.map Kind.of = z
  revert x y z
  decide

/-! ### The words of an ASCII name -/

/-- Each character as a cluster of its own. -/
def singles (s : List Char) : List Cluster := s.map fun c => [c]

/-- What may stand in one word of an ASCII name: no separator, and no letter next to a digit. -/
structure Unbroken (v : List Char) : Prop where
  ascii : Ascii v
  noSeparator : ∀ c ∈ v, isSeparator [c] = false
  unmixed : v.IsChain fun a b => Kind.mixes (.of a) (.of b) = false

theorem unbroken_nil : Unbroken [] :=
  ⟨fun _ h => absurd h List.not_mem_nil, fun _ h => absurd h List.not_mem_nil, .nil⟩

theorem unbroken_singleton {c : Char} (hascii : c.toNat < 0x80) (hc : isSeparator [c] = false) :
    Unbroken [c] :=
  ⟨List.forall_mem_singleton.mpr hascii, List.forall_mem_singleton.mpr hc, .singleton c⟩

/-- The open word goes on where no word ends. -/
theorem Unbroken.concat {u t : List Char} {c : Char} (hu : Unbroken u) (ht : Ascii (c :: t))
    (hc : isSeparator [c] = false)
    (hends : (u.getLast?.map fun c => [c]).any
      (fun p => endsBetween p [c] (t.head?.map fun c => [c])) = false) : Unbroken (u ++ [c]) where
  ascii := List.forall_mem_append.mpr
    ⟨hu.ascii, List.forall_mem_singleton.mpr (ht c List.mem_cons_self)⟩
  noSeparator := List.forall_mem_append.mpr ⟨hu.noSeparator, List.forall_mem_singleton.mpr hc⟩
  unmixed := by
    refine List.isChain_append.mpr ⟨hu.unmixed, .singleton c, fun a ha b hb => ?_⟩
    obtain rfl : c = b := Option.some.inj hb
    rw [Option.mem_def.mp ha, Option.map_some, Option.any_some,
      endsBetween_of_ascii (hu.ascii a (List.mem_of_getLast? ha)) (ht c List.mem_cons_self)
        fun d hd => ht d (List.mem_cons_of_mem _ (List.mem_of_head? hd))] at hends
    by_contra hmixes
    rw [Kind.divides_of_mixes _ _ _ (Bool.eq_true_of_not_eq_false hmixes)] at hends
    cases hends

/-- A step of the division into words, in front of a character that is no separator. -/
theorem wordsFrom_singles_cons {prev : Option Cluster} {u t : List Char} {c : Char}
    (hc : isSeparator [c] = false) :
    wordsFrom prev (singles u) (singles (c :: t)) =
      if prev.any fun p => endsBetween p [c] (t.head?.map fun c => [c]) then
        singles u :: wordsFrom (some [c]) (singles [c]) (singles t)
      else wordsFrom (some [c]) (singles (u ++ [c])) (singles t) := by
  simp only [singles, List.map_cons, List.map_nil, List.map_append, wordsFrom, hc, List.head?_map,
    Bool.false_eq_true, if_false]

theorem exists_unbroken_of_mem_wordsFrom {prev : Option Cluster} {u t : List Char}
    (hu : Unbroken u) (ht : Ascii t)
    (hlast : u ≠ [] → prev = u.getLast?.map fun c => [c]) {w : List Cluster}
    (hw : w ∈ wordsFrom prev (singles u) (singles t)) : ∃ v, Unbroken v ∧ w = singles v := by
  induction t generalizing prev u with
  | nil => exact ⟨u, hu, List.mem_singleton.mp hw⟩
  | cons c t ih =>
    have hrest : Ascii t := fun d hd => ht d (List.mem_cons_of_mem _ hd)
    -- a separator ends a word, and so may any other character
    by_cases hc : isSeparator [c] = true
    · have hsep : wordsFrom prev (singles u) (singles (c :: t)) =
          singles u :: wordsFrom (some [c]) (singles []) (singles t) := by
        simp only [singles, List.map_cons, List.map_nil, wordsFrom, hc, if_true]
      rw [hsep] at hw
      rcases List.mem_cons.mp hw with rfl | hw
      · exact ⟨u, hu, rfl⟩
      · exact ih unbroken_nil hrest (fun h => absurd rfl h) hw
    · have hc := Bool.eq_false_iff.mpr hc
      have hsingle := unbroken_singleton (ht c List.mem_cons_self) hc
      rw [wordsFrom_singles_cons hc] at hw
      split at hw
      · rcases List.mem_cons.mp hw with rfl | hw
        · exact ⟨u, hu, rfl⟩
        · exact ih hsingle hrest (fun _ => rfl) hw
      · next hends =>
        have hlast' : some [c] = (u ++ [c]).getLast?.map fun c => [c] := by
          rw [List.getLast?_concat, Option.map_some]
        refine ih ?_ hrest (fun _ => hlast') hw
        cases u with
        | nil => exact hsingle
        | cons a u =>
          rw [hlast (List.cons_ne_nil a u)] at hends
          exact hu.concat ht hc (Bool.eq_false_iff.mpr hends)

/-- The words of an ASCII name, each by its characters. -/
theorem exists_words_eq {s : List Char} (hs : Ascii s) :
    ∃ vs : List (List Char), words s = vs.map singles ∧ ∀ v ∈ vs, Unbroken v ∧ v ≠ [] := by
  have hword : ∀ w ∈ words s, ∃ v, w = singles v ∧ Unbroken v ∧ v ≠ [] := by
    intro w hw
    obtain ⟨hmem, hne⟩ := List.mem_filter.mp hw
    rw [clusters_of_plain hs.plain] at hmem
    obtain ⟨v, hv, rfl⟩ := exists_unbroken_of_mem_wordsFrom (u := []) unbroken_nil hs
      (fun h => absurd rfl h) hmem
    refine ⟨v, rfl, hv, ?_⟩
    rintro rfl
    cases hne
  clear hs
  generalize words s = ws at hword
  induction ws with
  | nil => exact ⟨[], rfl, by simp⟩
  | cons w ws ih =>
    obtain ⟨⟨v, rfl, hv⟩, hrest⟩ := List.forall_mem_cons.mp hword
    obtain ⟨vs, rfl, hvs⟩ := ih hrest
    exact ⟨v :: vs, rfl, List.forall_mem_cons.mpr ⟨hv, hvs⟩⟩

/-! ### Words in another case -/

theorem flatten_singles (s : List Char) : (singles s).flatten = s := by
  rw [singles, ← List.flatMap_def, List.flatMap_singleton']

/-- A word with a capital in front and small letters behind it. -/
def titleWord : List Char → List Char
  | [] => []
  | c :: rest => c.toUpper :: rest.map Char.toLower

theorem lowered_singles {v : List Char} (hv : Ascii v) :
    lowered (singles v) = v.map Char.toLower := by
  rw [lowered, flatten_singles, lowerChars_of_plain hv.plain]
  exact List.map_congr_left fun c hc => (asciiCase (hv c hc)).small_eq

theorem capitalized_singles {v : List Char} (hv : Ascii v) :
    capitalized (singles v) = titleWord v := by
  cases v with
  | nil => rfl
  | cons c rest =>
    obtain ⟨hc, hrest⟩ := List.forall_mem_cons.mp hv
    have hlow := lowered_singles hrest
    rw [lowered, flatten_singles] at hlow
    rw [singles, List.map_cons, capitalized, ← singles, flatten_singles, hlow, upperChars,
      List.flatMap_singleton, upperForm, if_pos hc]
    rfl

theorem Unbroken.map_toLower {v : List Char} (hv : Unbroken v) : Unbroken (v.map Char.toLower) where
  ascii := List.forall_mem_map.mpr fun c hc => (asciiCase (hv.ascii c hc)).ascii_toLower
  noSeparator := List.forall_mem_map.mpr fun c hc => by
    rw [(asciiCase (hv.ascii c hc)).separator_toLower, hv.noSeparator c hc]
  unmixed := by
    refine (List.isChain_map _).mpr (hv.unmixed.imp_of_mem_imp fun a b ha hb hmix => ?_)
    rw [(asciiCase (hv.ascii a ha)).of_toLower, (asciiCase (hv.ascii b hb)).of_toLower,
      Kind.mixes_down_left, Kind.mixes_down_right, hmix]

/-- A word without capitals is read in one piece. -/
theorem wordsFrom_append {a : Char} {u v t : List Char} (ha : a.toNat < 0x80) (hv : Unbroken v)
    (ht : Ascii t) (hsmall : ∀ c ∈ v, Kind.of c ≠ .capital)
    (hmix : ∀ c ∈ v.head?, Kind.mixes (.of a) (.of c) = false) :
    ∃ b, wordsFrom (some [a]) (singles u) (singles (v ++ t)) =
        wordsFrom (some [b]) (singles (u ++ v)) (singles t) := by
  induction v generalizing a u with
  | nil => exact ⟨a, by rw [List.append_nil, List.nil_append]⟩
  | cons c v ih =>
    obtain ⟨hc, hrest⟩ := List.forall_mem_cons.mp hv.ascii
    obtain ⟨hsep, hseps⟩ := List.forall_mem_cons.mp hv.noSeparator
    have htail : Unbroken v := ⟨hrest, hseps, hv.unmixed.tail⟩
    have hnext : ∀ d ∈ (v ++ t).head?, d.toNat < 0x80 := fun d hd =>
      List.forall_mem_append.mpr ⟨hrest, ht⟩ d (List.mem_of_head? hd)
    have hends : endsBetween [a] [c] ((v ++ t).head?.map fun c => [c]) = false := by
      rw [endsBetween_of_ascii ha hc hnext,
        Kind.divides_of_ne_capital _ _ _ (hsmall c List.mem_cons_self) (hmix c rfl)]
    -- no word ends within `v`, so `c` joins the word being read
    obtain ⟨b, hb⟩ := ih (u := u ++ [c]) hc htail
      (fun d hd => hsmall d (List.mem_cons_of_mem _ hd)) fun d hd => hv.unmixed.rel_head? hd
    refine ⟨b, ?_⟩
    rw [List.cons_append, wordsFrom_singles_cons hsep, Option.any_some, hends,
      if_neg Bool.false_ne_true, hb, List.append_assoc, List.singleton_append]

theorem of_eq_mark {sep : Char} (hsep : isSeparator [sep] = true) : Kind.of sep = .mark := by
  simp only [isSeparator, Bool.or_eq_true, List.cons_beq_cons, beq_self_eq_true, Bool.and_true,
    beq_iff_eq] at hsep
  rcases hsep with (rfl | rfl) | rfl <;> rfl

/-- Behind a separator words begin as they do at the start of a name. -/
theorem wordsFrom_separator {sep : Char} (hsep : isSeparator [sep] = true)
    (hascii : sep.toNat < 0x80) {s : List Char} (hs : Ascii s) :
    wordsFrom none [] (singles s) = wordsFrom (some [sep]) [] (singles s) := by
  cases s with
  | nil => rfl
  | cons c t =>
    obtain ⟨hc, ht⟩ := List.forall_mem_cons.mp hs
    have hends : endsBetween [sep] [c] (t.head?.map fun c => [c]) = false := by
      rw [endsBetween_of_ascii hascii hc fun d hd => ht d (List.mem_of_head? hd), of_eq_mark hsep]
      generalize Kind.of c = x, t.head?.map Kind.of = next
      -- over the kinds of the first two letters
      revert x next
      decide
    by_cases hsepc : isSeparator [c] = true
    · simp only [singles, List.map_cons, wordsFrom, hsepc, if_true]
    · have hsepc := Bool.eq_false_iff.mpr hsepc
      change wordsFrom none (singles []) _ = wordsFrom (some [sep]) (singles []) _
      rw [wordsFrom_singles_cons hsepc, wordsFrom_singles_cons hsepc, Option.any_some, hends,
        Option.any_none]

/-- The words of words that a separator joins, where none holds a capital. -/
theorem words_intercalate {sep : Char} (hsep : isSeparator [sep] = true) (hascii : sep.toNat < 0x80)
    {vs : List (List Char)} (hvs : ∀ v ∈ vs, Unbroken v ∧ v ≠ [] ∧ ∀ c ∈ v, Kind.of c ≠ .capital) :
    words ([sep].intercalate vs) = vs.map singles := by
  have hall : ∀ vs : List (List Char),
      (∀ v ∈ vs, Unbroken v ∧ v ≠ [] ∧ ∀ c ∈ v, Kind.of c ≠ .capital) →
        Ascii ([sep].intercalate vs) := by
    intro vs hvs c hc
    rcases mem_intercalate hc with rfl | ⟨v, hv, hc⟩
    · exact hascii
    · exact (hvs v hv).1.ascii c hc
  rw [words, clusters_of_plain (hall vs hvs).plain, ← singles,
    wordsFrom_separator hsep hascii (hall vs hvs)]
  induction vs with
  | nil => rfl
  | cons v vs ih =>
    obtain ⟨⟨hv, hne, hsmall⟩, hrest⟩ := List.forall_mem_cons.mp hvs
    -- no word ends between the separator and the word behind it
    have hmix : ∀ c ∈ v.head?, Kind.mixes (.of sep) (.of c) = false := fun c _ => by
      rw [of_eq_mark hsep]
      generalize Kind.of c = x
      revert x
      decide
    have hword : singles v ≠ [] := fun h => hne (List.map_eq_nil_iff.mp h)
    cases vs with
    | nil =>
      obtain ⟨b, hb⟩ :=
        wordsFrom_append (u := []) (t := []) hascii hv unbroken_nil.ascii hsmall hmix
      rw [List.append_nil, List.nil_append] at hb
      rw [List.intercalate_singleton]
      refine (congrArg _ hb).trans ?_
      simp [singles, wordsFrom, hne]
    | cons w vs =>
      have htail : Ascii (sep :: [sep].intercalate (w :: vs)) :=
        List.forall_mem_cons.mpr ⟨hascii, hall _ hrest⟩
      obtain ⟨b, hb⟩ := wordsFrom_append (u := []) hascii hv htail hsmall hmix
      have hcut : wordsFrom (some [b]) (singles v) (singles (sep :: [sep].intercalate (w :: vs))) =
          singles v :: wordsFrom (some [sep]) [] (singles ([sep].intercalate (w :: vs))) := by
        simp only [singles, List.map_cons, wordsFrom, hsep, if_true]
      rw [List.intercalate_cons_cons, List.append_assoc, List.singleton_append]
      rw [List.nil_append, hcut] at hb
      refine (congrArg _ hb).trans ?_
      rw [List.filter_cons_of_pos (by simpa using hword), ih hrest, List.map_cons (a := v)]

end TypedSheets.Text
