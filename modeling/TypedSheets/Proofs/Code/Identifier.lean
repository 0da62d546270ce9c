import Mathlib
import TypedSheets.Code.Items
import TypedSheets.Proofs.Code.Lexing

/-!
# Identifiers under a change of case

A character that an identifier may hold stays one in lower case, and so does its capital when it is
put into lower case again; a letter stays a letter. In between the capital need not be a letter: a
few capitals came into the alphabet later than their small letters.

The case forms that are single code points are kept as runs. So it is enough to look at where a run
leads: into the letters, or the run holds no characters of identifiers, or its points are looked at
one by one.

## Main definitions

* `Text.bits` — the numbers in ranges, as the bits of a number
* `Text.covers`, `Text.misses` — a range lies inside or outside of ranges
* `Lexer.isLetter` — what an identifier may start with, the underscore aside
* `Lexer.KeepsNames` — a form of a character that identifiers may hold in its place
* `Code.Usable` — a name that can be written as an identifier, plain or raw

## Main results

* `Lexer.keepsNames_lowerForm` — the small letter of a character
* `Lexer.keepsNames_upperForm` — the small letter of its capital
* `Lexer.upperForm_of_notStart` — what only goes on with an identifier has no case, marks aside
* `Code.usable_iff` — the names that can be written as identifiers
-/

namespace TypedSheets

namespace Text

/-! ### Ranges in sorted ranges -/

variable {rs : List (Nat × Nat)} {a b n : Nat}

/-- Whether the ranges are sorted and begin at `floor` or above. -/
def sortedFrom : (floor : Nat) → List (Nat × Nat) → Bool
  | _, [] => true
  | floor, (lo, hi) :: rest => Nat.ble floor lo && Nat.ble lo hi && sortedFrom (hi + 1) rest

theorem le_of_sortedFrom {floor : Nat} (h : sortedFrom floor rs = true) {r : Nat × Nat}
    (hr : r ∈ rs) : floor ≤ r.1 := by
  induction rs generalizing floor with
  | nil => cases hr
  | cons s rest ih =>
    obtain ⟨lo, hi⟩ := s
    simp only [sortedFrom, Bool.and_eq_true, Nat.ble_eq] at h
    obtain ⟨⟨hfloor, hlohi⟩, hrest⟩ := h
    rcases List.mem_cons.mp hr with rfl | hr
    · exact hfloor
    · have hr := ih hrest hr
      omega

theorem inRanges_iff {floor : Nat} (h : sortedFrom floor rs = true) :
    inRanges rs n = true ↔ ∃ r ∈ rs, r.1 ≤ n ∧ n ≤ r.2 := by
  induction rs generalizing floor with
  | nil => simp [inRanges]
  | cons r rest ih =>
    obtain ⟨lo, hi⟩ := r
    simp only [sortedFrom, Bool.and_eq_true, Nat.ble_eq] at h
    obtain ⟨⟨-, hlohi⟩, hrest⟩ := h
    rw [inRanges]
    simp only [List.mem_cons, exists_eq_or_imp]
    split
    · next hlo =>
      -- the ranges behind lie higher still
      have hnone : ¬ ∃ r ∈ rest, r.1 ≤ n ∧ n ≤ r.2 := by
        rintro ⟨r, hr, hn, -⟩
        have hr := le_of_sortedFrom hrest hr
        omega
      simp only [hnone, or_false, Bool.false_eq_true, false_iff]
      omega
    · split
      · next hlo hhi => simp [Nat.le_of_not_lt hlo, hhi]
      · next hlo hhi => simp [ih hrest, hhi]

/-! ### Ranges as bits -/

/-- The numbers in ranges, as the bits of a number. -/
def bits (rs : List (Nat × Nat)) : Nat :=
  rs.foldr (fun r done => done ||| (2 ^ (r.2 + 1 - r.1) - 1) <<< r.1) 0

theorem testBit_bits : (bits rs).testBit n = true ↔ ∃ r ∈ rs, r.1 ≤ n ∧ n ≤ r.2 := by
  induction rs with
  | nil => simp [bits]
  | cons r rest ih =>
    have hcons : bits (r :: rest) = bits rest ||| (2 ^ (r.2 + 1 - r.1) - 1) <<< r.1 := rfl
    rw [hcons, Nat.testBit_or, Bool.or_eq_true, ih, Nat.testBit_shiftLeft,
      Nat.testBit_two_pow_sub_one, Bool.and_eq_true, decide_eq_true_eq, decide_eq_true_eq, or_comm]
    simp only [List.mem_cons, exists_eq_or_imp]
    refine or_congr_left ?_
    omega

/-- The bits of a number from `a` to `b`. -/
def window (bits a b : Nat) : Nat := (bits >>> a) % 2 ^ (b + 1 - a)

theorem testBit_window {bits : Nat} (ha : a ≤ n) (hb : n ≤ b) :
    (window bits a b).testBit (n - a) = bits.testBit n := by
  rw [window, Nat.testBit_mod_two_pow, Nat.testBit_shiftRight, Nat.add_sub_cancel' ha,
    decide_eq_true (by omega), Bool.true_and]

/-- Whether the ranges hold all numbers from `a` to `b`. -/
def covers (rs : List (Nat × Nat)) (a b : Nat) : Bool :=
  Nat.beq (window (bits rs) a b) (2 ^ (b + 1 - a) - 1)

/-- Whether the ranges hold no number from `a` to `b`. -/
def misses (rs : List (Nat × Nat)) (a b : Nat) : Bool := Nat.beq (window (bits rs) a b) 0

theorem inRanges_of_covers {floor : Nat} (hsorted : sortedFrom floor rs = true)
    (h : covers rs a b = true) (ha : a ≤ n) (hb : n ≤ b) : inRanges rs n = true := by
  rw [inRanges_iff hsorted, ← testBit_bits, ← testBit_window ha hb, Nat.eq_of_beq_eq_true h,
    Nat.testBit_two_pow_sub_one, decide_eq_true_eq]
  omega

theorem inRanges_of_misses {floor : Nat} (hsorted : sortedFrom floor rs = true)
    (h : misses rs a b = true) (ha : a ≤ n) (hb : n ≤ b) : inRanges rs n = false := by
  rw [← Bool.not_eq_true, inRanges_iff hsorted, ← testBit_bits, ← testBit_window ha hb,
    Nat.eq_of_beq_eq_true h, Nat.zero_testBit]
  exact Bool.false_ne_true

/-! ### Runs of case forms -/

/-- The code points of a run. -/
def Table.CaseRun.points (r : Table.CaseRun) : List Nat :=
  (List.range ((r.last - r.first) / r.step + 1)).map fun k => r.first + k * r.step

/-- Where a code point of a run is mapped to. -/
def Table.CaseRun.image (r : Table.CaseRun) (n : Nat) : Nat := Int.toNat (n + r.shift)

theorem Table.CaseRun.mem_points {r : Table.CaseRun} (hfirst : r.first ≤ n) (hlast : n ≤ r.last)
    (hstep : (n - r.first) % r.step = 0) : n ∈ r.points := by
  have hdivides := Nat.dvd_of_mod_eq_zero hstep
  refine List.mem_map.mpr ⟨(n - r.first) / r.step, List.mem_range.mpr ?_, ?_⟩
  · exact Nat.lt_succ_of_le (Nat.div_le_div_right (Nat.sub_le_sub_right hlast _))
  · rw [Nat.div_mul_cancel hdivides]
    omega

/-- A point lies in a run and is mapped by it. -/
structure Table.CaseRun.Maps (r : Table.CaseRun) (n m : Nat) : Prop where
  first : r.first ≤ n
  last : n ≤ r.last
  mem : n ∈ r.points
  image : m = r.image n

theorem exists_of_caseImage {runs : List Table.CaseRun} {m : Nat} (h : caseImage runs n = some m) :
    ∃ r ∈ runs, r.Maps n m := by
  induction runs with
  | nil => cases h
  | cons r rest ih =>
    rw [caseImage] at h
    split at h
    · next hrun =>
      simp only [Bool.and_eq_true, decide_eq_true_eq, beq_iff_eq] at hrun
      obtain ⟨⟨hfirst, hlast⟩, hstep⟩ := hrun
      exact ⟨r, List.mem_cons_self, hfirst, hlast, Table.CaseRun.mem_points hfirst hlast hstep,
        (Option.some.inj h).symm⟩
    · obtain ⟨r', hr', hmaps⟩ := ih h
      exact ⟨r', List.mem_cons_of_mem _ hr', hmaps⟩

/-- A case form is a long one, that of a run, or the character itself. -/
theorem caseForm_cases (long : List (Nat × List Nat)) (runs : List Table.CaseRun) (c : Char) :
    (∃ e ∈ long, e.1 = c.toNat ∧ caseForm long runs c = e.2.map Char.ofNat) ∨
    (∃ r ∈ runs, ∃ m, r.Maps c.toNat m ∧ caseForm long runs c = [Char.ofNat m]) ∨
    caseForm long runs c = [c] := by
  rw [caseForm]
  cases hlong : long.lookup c.toNat with
  | some form =>
    obtain ⟨front, behind, hsplit, -⟩ := List.lookup_eq_some_iff.mp hlong
    exact .inl ⟨(c.toNat, form), hsplit ▸ by simp, rfl, rfl⟩
  | none =>
    cases himage : caseImage runs c.toNat with
    | some m =>
      obtain ⟨r, hr, hmaps⟩ := exists_of_caseImage himage
      exact .inr (.inl ⟨r, hr, m, hmaps, rfl⟩)
    | none => exact .inr (.inr rfl)

end Text

namespace Code.Lexer

open Text

/-! ### Letters -/

/-- What an identifier may start with, the underscore aside. -/
def isLetter (c : Char) : Bool := isIdentStart c && c != '_'

theorem sorted_identifierStart : sortedFrom 0 Table.identifierStart = true := by
  decide +kernel

theorem sorted_identifierOnly : sortedFrom 0 Table.identifierOnly = true := by
  decide +kernel

theorem sorted_extending : sortedFrom 0 Table.extending = true := by
  decide +kernel

variable {c : Char}

theorem isIdentStart_of_isLetter (h : isLetter c = true) : isIdentStart c = true :=
  ((Bool.and_eq_true _ _).mp h).1

theorem isIdentContinue_of_isLetter (h : isLetter c = true) : isIdentContinue c = true :=
  isIdentContinue_of_isIdentStart (isIdentStart_of_isLetter h)

theorem isLetter_of_inRanges (h : inRanges Table.identifierStart c.toNat = true) :
    isLetter c = true := by
  by_cases hascii : c.toNat < 0x80
  · have hall : ∀ n : Fin 0x80, inRanges Table.identifierStart n = true →
        isLetter (.ofNat n) = true := by
      decide +kernel
    have hc := hall ⟨c.toNat, hascii⟩ h
    rwa [Char.ofNat_toNat] at hc
  · have hne : c ≠ '_' := by
      rintro rfl
      exact hascii (by decide)
    simp [isLetter, isIdentStart, h, hne]
    omega

/-- Beyond ASCII the characters of identifiers are those of two tables. -/
theorem isIdentContinue_of_notMem (h : 0x80 ≤ c.toNat)
    (hletter : inRanges Table.identifierStart c.toNat = false)
    (hother : inRanges Table.identifierOnly c.toNat = false) : isIdentContinue c = false := by
  have hne : c ≠ '_' := by
    rintro rfl
    exact absurd h (by decide)
  have halpha : c.isAlpha = false := by
    simp [Char.isAlpha, Char.isUpper, Char.isLower, UInt32.le_iff_toNat_le]
    omega
  have hdigit : c.isDigit = false := by
    simp [Char.isDigit, UInt32.le_iff_toNat_le]
    omega
  simp [isIdentContinue, isIdentStart, hletter, hother, hne, halpha, hdigit]

/-! ### Case forms -/

/-- A form of a character that identifiers may hold in its place. -/
structure KeepsNames (c : Char) (form : List Char) : Prop where
  continues : isIdentContinue c = true → ∀ d ∈ form, isIdentContinue d = true
  starts : isLetter c = true → form.head?.any isLetter = true

-- the instance goes through the form, not through all characters
instance (c : Char) (form : List Char) : Decidable (KeepsNames c form) :=
  decidable_of_iff ((isIdentContinue c = true → form.all isIdentContinue = true) ∧
      (isLetter c = true → form.head?.any isLetter = true))
    ⟨fun ⟨h₁, h₂⟩ => ⟨fun hc => List.all_eq_true.mp (h₁ hc), h₂⟩,
      fun ⟨h₁, h₂⟩ => ⟨fun hc => List.all_eq_true.mpr (h₁ hc), h₂⟩⟩

theorem keepsNames_self (c : Char) : KeepsNames c [c] :=
  ⟨fun h => List.forall_mem_singleton.mpr h, fun h => h⟩

theorem KeepsNames.of_isLetter {d : Char} (h : isLetter d = true) : KeepsNames c [d] :=
  ⟨fun _ => List.forall_mem_singleton.mpr (isIdentContinue_of_isLetter h), fun _ => h⟩

theorem KeepsNames.of_not_isIdentContinue {form : List Char} (h : isIdentContinue c = false) :
    KeepsNames c form where
  continues hc := absurd hc (Bool.eq_false_iff.mp h)
  starts hc := absurd (isIdentContinue_of_isLetter hc) (Bool.eq_false_iff.mp h)

/-- A code point of a letter is that of a character. -/
theorem toNat_ofNat_of_inRanges {n : Nat} (h : inRanges Table.identifierStart n = true) :
    (Char.ofNat n).toNat = n := by
  have hvalid : ∀ r ∈ Table.identifierStart, r.2 < 0xD800 ∨ (0xE000 ≤ r.1 ∧ r.2 < 0x110000) := by
    decide +kernel
  obtain ⟨r, hr, hlo, hhi⟩ := (inRanges_iff sorted_identifierStart).mp h
  have hn : n.isValidChar := by
    rcases hvalid r hr with hlow | ⟨hhigh, hlast⟩
    · exact .inl (lt_of_le_of_lt hhi hlow)
    · exact .inr ⟨by omega, by omega⟩
  rw [Char.ofNat, dif_pos hn]
  rfl

/-- A run leads to letters, holds no characters of identifiers, or each of its points has a form
that identifiers may hold in its place. -/
def runKeeps (form : Char → List Char) (r : Table.CaseRun) : Bool :=
  covers Table.identifierStart (r.image r.first) (r.image r.last) ||
    (misses Table.identifierStart r.first r.last && misses Table.identifierOnly r.first r.last) ||
    r.points.all fun n => KeepsNames (.ofNat n) (form (.ofNat n))

theorem KeepsNames.of_run {f : Char → List Char} {r : Table.CaseRun} {m : Nat}
    (hr : runKeeps f r = true) (hmaps : r.Maps c.toNat m) (hc : 0x80 ≤ c.toNat)
    (hletter : isLetter (.ofNat m) = true → KeepsNames c (f c)) : KeepsNames c (f c) := by
  rw [runKeeps, Bool.or_eq_true, Bool.or_eq_true, Bool.and_eq_true] at hr
  -- the images are all letters, or no character of the run is in a name, or each was checked
  rcases hr with (hcovers | ⟨hletters, hothers⟩) | hpoints
  · have hfirst := hmaps.first
    have hlast := hmaps.last
    have himage : inRanges Table.identifierStart m = true := by
      rw [hmaps.image]
      refine inRanges_of_covers sorted_identifierStart hcovers ?_ ?_ <;>
      · rw [Table.CaseRun.image, Table.CaseRun.image]
        omega
    refine hletter (isLetter_of_inRanges ?_)
    rw [toNat_ofNat_of_inRanges himage, himage]
  · exact .of_not_isIdentContinue (isIdentContinue_of_notMem hc
      (inRanges_of_misses sorted_identifierStart hletters hmaps.first hmaps.last)
      (inRanges_of_misses sorted_identifierOnly hothers hmaps.first hmaps.last))
  · have hpoint := List.all_eq_true.mp hpoints c.toNat hmaps.mem
    rw [Char.ofNat_toNat, decide_eq_true_eq] at hpoint
    exact hpoint

/-- The small letter of a character stays in identifiers, and that of a letter is one. -/
theorem keepsNames_lowerForm (c : Char) : KeepsNames c (lowerForm c) := by
  -- ASCII by decision; then the characters of the tables, and those that have no lower form of
  -- their own
  by_cases hascii : c.toNat < 0x80
  · have hall : ∀ n : Fin 0x80, KeepsNames (.ofNat n) (lowerForm (.ofNat n)) := by decide
    have hc := hall ⟨c.toNat, hascii⟩
    rwa [Char.ofNat_toNat] at hc
  have hform : lowerForm c = caseForm Table.lowerLong Table.lowerRuns c := if_neg hascii
  rcases caseForm_cases Table.lowerLong Table.lowerRuns c with
    ⟨e, he, hkey, hlong⟩ | ⟨r, hr, m, hmaps, hrun⟩ | hself
  · have hall : ∀ e ∈ Table.lowerLong, KeepsNames (.ofNat e.1) (e.2.map .ofNat) := by
      decide +kernel
    have hc := hall e he
    rwa [hkey, Char.ofNat_toNat, ← hlong, ← hform] at hc
  · have hruns : Table.lowerRuns.all (runKeeps lowerForm) = true := by decide +kernel
    refine .of_run (List.all_eq_true.mp hruns r hr) hmaps (by omega) fun hletter => ?_
    rw [hform, hrun]
    exact .of_isLetter hletter
  · rw [hform, hself]
    exact keepsNames_self c

theorem lowerForm_ne_nil (c : Char) : lowerForm c ≠ [] := by
  rw [lowerForm]
  split
  · exact List.cons_ne_nil _ _
  · rcases caseForm_cases Table.lowerLong Table.lowerRuns c with
      ⟨e, he, -, hform⟩ | ⟨_, _, _, -, hform⟩ | hform
    · have hall : ∀ e ∈ Table.lowerLong, e.2.map Char.ofNat ≠ [] := by decide
      exact hform ▸ hall e he
    · exact hform ▸ List.cons_ne_nil _ _
    · exact hform ▸ List.cons_ne_nil _ _

theorem head?_flatMap_lowerForm (d : Char) (rest : List Char) :
    ((d :: rest).flatMap lowerForm).head? = (lowerForm d).head? := by
  rw [List.flatMap_cons, List.head?_append,
    Option.or_of_isSome (List.isSome_head?.mpr (lowerForm_ne_nil d))]

/-- Characters of identifiers in lower case, the first of them a letter. -/
theorem keepsNames_flatMap {form : List Char} (hall : form.all isIdentContinue = true)
    (hfirst : form.head?.any isLetter = true) : KeepsNames c (form.flatMap lowerForm) := by
  cases form with
  | nil => cases hfirst
  | cons d rest =>
    refine ⟨fun _ e he => ?_, fun _ => ?_⟩
    · obtain ⟨b, hb, he⟩ := List.mem_flatMap.mp he
      exact (keepsNames_lowerForm b).continues (List.all_eq_true.mp hall b hb) e he
    · rw [head?_flatMap_lowerForm]
      exact (keepsNames_lowerForm d).starts hfirst

/-- The small letter of a capital stays in identifiers; that of the capital of a letter is one. -/
theorem keepsNames_upperForm (c : Char) : KeepsNames c ((upperForm c).flatMap lowerForm) := by
  -- ASCII by decision; then the characters of the tables, and those that have no upper form of
  -- their own
  by_cases hascii : c.toNat < 0x80
  · have hall : ∀ n : Fin 0x80,
        KeepsNames (.ofNat n) ((upperForm (.ofNat n)).flatMap lowerForm) := by
      decide
    have hc := hall ⟨c.toNat, hascii⟩
    rwa [Char.ofNat_toNat] at hc
  have hform : upperForm c = caseForm Table.upperLong Table.upperRuns c := if_neg hascii
  rcases caseForm_cases Table.upperLong Table.upperRuns c with
    ⟨e, he, -, hlong⟩ | ⟨r, hr, m, hmaps, hrun⟩ | hself
  · have hall : ∀ e ∈ Table.upperLong, (e.2.map Char.ofNat).all isIdentContinue = true ∧
        (e.2.map Char.ofNat).head?.any isLetter = true := by
      decide +kernel
    rw [hform, hlong]
    exact keepsNames_flatMap (hall e he).1 (hall e he).2
  · have hruns :
        Table.upperRuns.all (runKeeps fun c => (upperForm c).flatMap lowerForm) = true := by
      decide +kernel
    refine .of_run (f := fun c => (upperForm c).flatMap lowerForm)
      (List.all_eq_true.mp hruns r hr) hmaps (by omega) fun hletter => ?_
    rw [hform, hrun]
    refine keepsNames_flatMap ?_ hletter
    rw [List.all_cons, isIdentContinue_of_isLetter hletter]
    rfl
  · rw [hform, hself, List.flatMap_singleton]
    exact keepsNames_lowerForm c

/-! ### Characters without case -/

/-- Whether a run holds nothing that goes on with an identifier only, or marks. -/
def runOfLetters (r : Table.CaseRun) : Bool :=
  misses Table.identifierOnly r.first r.last || covers Table.extending r.first r.last

/-- What goes on with an identifier, starts none and is no mark has no case. -/
theorem caseForm_of_notStart {long : List (Nat × List Nat)} {runs : List Table.CaseRun}
    (hlong : long.all (fun e => misses Table.identifierOnly e.1 e.1) = true)
    (hruns : runs.all runOfLetters = true) (hother : inRanges Table.identifierOnly c.toNat = true)
    (hmark : isMark c = false) : caseForm long runs c = [c] := by
  rcases caseForm_cases long runs c with ⟨e, he, hkey, -⟩ | ⟨r, hr, m, hmaps, -⟩ | hself
  · have hmisses := List.all_eq_true.mp hlong e he
    rw [inRanges_of_misses sorted_identifierOnly hmisses hkey.le hkey.ge] at hother
    cases hother
  · have hrun := List.all_eq_true.mp hruns r hr
    rcases (Bool.or_eq_true _ _).mp hrun with hmisses | hcovers
    · rw [inRanges_of_misses sorted_identifierOnly hmisses hmaps.first hmaps.last] at hother
      cases hother
    · rw [isMark, inRanges_of_covers sorted_extending hcovers hmaps.first hmaps.last] at hmark
      cases hmark
  · exact hself

theorem upperForm_of_notStart (hc : isIdentContinue c = true) (hstart : isIdentStart c = false)
    (hmark : isMark c = false) : upperForm c = [c] ∧ lowerForm c = [c] := by
  by_cases hascii : c.toNat < 0x80
  · have hall : ∀ n : Fin 0x80, isIdentContinue (.ofNat n) = true →
        isIdentStart (.ofNat n) = false →
        upperForm (.ofNat n) = [.ofNat n] ∧ lowerForm (.ofNat n) = [.ofNat n] := by
      decide +kernel
    have hall := hall ⟨c.toNat, hascii⟩
    rw [Char.ofNat_toNat] at hall
    exact hall hc hstart
  -- what goes on in a name and starts none is in the other table
  · have hother : inRanges Table.identifierOnly c.toNat = true := by
      by_contra hnot
      have hletter : inRanges Table.identifierStart c.toNat = false := by
        by_contra hletter
        rw [Bool.not_eq_false] at hletter
        rw [isIdentStart_of_isLetter (isLetter_of_inRanges hletter)] at hstart
        cases hstart
      rw [isIdentContinue_of_notMem (by omega) hletter (Bool.eq_false_iff.mpr hnot)] at hc
      cases hc
    rw [upperForm, lowerForm, if_neg hascii, if_neg hascii]
    exact ⟨caseForm_of_notStart (by decide +kernel) (by decide +kernel) hother hmark,
      caseForm_of_notStart (by decide +kernel) (by decide +kernel) hother hmark⟩

end Code.Lexer

/-! ### Names as identifiers -/

namespace Code

/-- A name can be written as an identifier, plain or raw. -/
def Usable (name : String) : Prop := ∃ t, memberOf name = .ok [t]

theorem isIdentifier_iff {name : String} : isIdentifier name = true ↔
    name.toList.head?.any Lexer.isIdentStart = true ∧
      ∀ c ∈ name.toList, Lexer.isIdentContinue c = true := by
  rw [isIdentifier]
  cases name.toList with
  | nil => simp
  | cons c rest =>
    rw [Bool.and_eq_true, List.all_eq_true, List.head?_cons, Option.any_some, List.forall_mem_cons]
    constructor
    · rintro ⟨hc, hrest⟩
      exact ⟨hc, Lexer.isIdentContinue_of_isIdentStart hc, hrest⟩
    · rintro ⟨hc, -, hrest⟩
      exact ⟨hc, hrest⟩

theorem neverNames_subset_keywords : ∀ n ∈ neverNames, isKeyword n = true := by
  decide

/-- The names that can be written are the identifiers but for the words that are never names. -/
theorem usable_iff {name : String} :
    Usable name ↔ isIdentifier name = true ∧ name ∉ neverNames := by
  have hmember : Usable name ↔ (memberName? name).isSome = true := by
    rw [Usable, memberOf]
    cases memberName? name <;> simp
  rw [hmember, memberName?]
  cases hname : isIdentifier name with
  | false => simp
  | true =>
    by_cases hnever : name ∈ neverNames
    · simp [hnever, neverNames_subset_keywords name hnever]
    · cases isKeyword name <;> simp [hnever]

end Code

end TypedSheets
