import Mathlib.Data.List.Basic
import Mathlib.Data.List.Induction
import Mathlib.Tactic.Ring
import TypedSheets.Number.Decimal
import TypedSheets.Text.Basic

/-!
# The texts of numbers

The text of a number holds no white space, so trimming leaves it as it is, and it is not blank. The
text of an integer reads back.

Many texts denote one integer: a plus sign, zeros in front of the digits and a minus sign before
zero make no difference to the parser. One of them is the text that the integer prints to.

## Main definitions

* `Number.Canonical` — a text with no such addition

## Main results

* `trimChars_intText`, `isBlank_intText`, `parseInt?_intText`
* `isBlank_text` — the text of a floating point number is not blank
* `eq_intText_iff` — a text that denotes an integer is its text exactly if it is canonical
* `length_natChars_le_iff` — how many digits a number has
* `natChars_mul_pow` — the digits of a number times a power of ten
-/

namespace TypedSheets

namespace Text

/-- A text without white space has none at its ends. -/
theorem trimChars_eq_self {s : List Char} (h : ∀ c ∈ s, isBlankChar c = false) :
    trimChars s = s := by
  have hstart : ∀ t : List Char, (∀ c ∈ t, isBlankChar c = false) →
      t.dropWhile isBlankChar = t := by
    intro t ht
    cases t with
    | nil => rfl
    | cons c rest => rw [List.dropWhile_cons_of_neg (by simp [ht c List.mem_cons_self])]
  rw [trimChars, trimStartChars, hstart s h, trimEndChars,
    hstart s.reverse fun c hc => h c (List.mem_reverse.mp hc), List.reverse_reverse]

theorem isBlank_eq_false {s : String} {c : Char} (hc : c ∈ s.toList) (h : isBlankChar c = false) :
    isBlank s = false := by
  rw [isBlank, ← Bool.not_eq_true, List.all_eq_true]
  intro hall
  rw [hall c hc] at h
  cases h

theorem isBlankChar_of_isDigit {c : Char} (h : c.isDigit = true) : isBlankChar c = false := by
  have hlow : 48 ≤ c.toNat := by
    have := (Char.isDigit_iff_toNat.mp h).1
    simpa using this
  have hhigh : c.toNat ≤ 57 := by
    have := (Char.isDigit_iff_toNat.mp h).2
    simpa using this
  simp only [isBlankChar, Bool.or_eq_false_iff, Bool.and_eq_false_iff, decide_eq_false_iff_not,
    beq_eq_false_iff_ne]
  omega

end Text

namespace Number

open Text

theorem isBlankChar_of_mem_natChars {n : Nat} {c : Char} (h : c ∈ natChars n) :
    isBlankChar c = false :=
  isBlankChar_of_isDigit (isDigit_of_mem_natChars n c h)

theorem toList_intText (i : Int) :
    (intText i).toList = if i < 0 then '-' :: natChars i.natAbs else natChars i.natAbs := by
  rw [intText]
  split <;> simp [natText]

/-- The text of an integer has digits, and a sign if it is negative. -/
theorem sign_or_isDigit_of_mem_intText {i : Int} {c : Char} (h : c ∈ (intText i).toList) :
    c = '-' ∨ c.isDigit = true := by
  rw [toList_intText] at h
  split at h
  · exact (List.mem_cons.mp h).imp_right (isDigit_of_mem_natChars _ c)
  · exact .inr (isDigit_of_mem_natChars _ c h)

theorem isBlankChar_of_mem_intText {i : Int} {c : Char} (h : c ∈ (intText i).toList) :
    isBlankChar c = false := by
  rcases sign_or_isDigit_of_mem_intText h with rfl | h
  · decide
  · exact isBlankChar_of_isDigit h

theorem trimChars_intText (i : Int) : trimChars (intText i).toList = (intText i).toList :=
  trimChars_eq_self fun _ h => isBlankChar_of_mem_intText h

theorem intText_ne_nil (i : Int) : (intText i).toList ≠ [] := by
  rw [toList_intText]
  split
  · exact List.cons_ne_nil _ _
  · exact natChars_ne_nil _

theorem isBlank_intText (i : Int) : isBlank (intText i) = false := by
  obtain ⟨c, hc⟩ := List.exists_mem_of_ne_nil _ (intText_ne_nil i)
  exact isBlank_eq_false hc (isBlankChar_of_mem_intText hc)

/-- The text of an integer reads back. -/
theorem parseInt?_intText (i : Int) : parseInt? (intText i).toList = some i := by
  rw [toList_intText]
  split
  · next h =>
    have hneg : (-(i.natAbs : Int)) = i := by omega
    rw [parseInt?, parseNat?_natChars]
    simpa using hneg
  · next h =>
    have hparse : parseInt? (natChars i.natAbs) =
        (parseNat? (natChars i.natAbs)).map Int.ofNat := by
      have hdigit := isDigit_of_mem_natChars i.natAbs
      -- the first character is a digit and no sign
      rw [parseInt?.eq_def]
      split
      · next heq => exact absurd (hdigit '-' (heq ▸ List.mem_cons_self)) (by decide)
      · next heq => exact absurd (hdigit '+' (heq ▸ List.mem_cons_self)) (by decide)
      · rfl
    rw [hparse, parseNat?_natChars, Option.map_some]
    congr 1
    simp only [Int.ofNat_eq_natCast]
    omega

theorem exists_mem_positional (d : Shortest) : ∃ c ∈ d.positional, isBlankChar c = false := by
  obtain ⟨c, hc⟩ := List.exists_mem_of_ne_nil _ (natChars_ne_nil d.digits)
  simp only [Shortest.positional]
  split
  · exact ⟨c, List.mem_append_left _ hc, isBlankChar_of_mem_natChars hc⟩
  · split
    · exact ⟨'.', List.mem_append_right _ List.mem_cons_self, by decide⟩
    · exact ⟨'0', List.mem_append_left _ List.mem_cons_self, by decide⟩

/-- The text of a floating point number is not blank. -/
theorem isBlank_text {f : Format} (x : Binary f) : isBlank x.text = false := by
  rw [Binary.text]
  split
  · decide
  · decide
  · decide
  · next s m e _ =>
    obtain ⟨c, hc, hblank⟩ : ∃ c ∈ (if m == 0 then ['0']
        else ((Shortest.of f m e).stripped 400).positional), isBlankChar c = false := by
      split
      · exact ⟨'0', List.mem_cons_self, by decide⟩
      · exact exists_mem_positional _
    refine isBlank_eq_false (c := c) ?_ hblank
    rw [String.toList_ofList]
    split
    · exact List.mem_cons_of_mem _ hc
    · exact hc

end Number

end TypedSheets

/-! ## Canonical decimal text -/

namespace TypedSheets.Number

/-! ### Digits and their number -/

theorem digitChar_digitValue {c : Char} (h : c.isDigit = true) : digitChar (digitValue c) = c := by
  have hlow : 48 ≤ c.toNat := by simpa using (Char.isDigit_iff_toNat.mp h).1
  have hhigh : c.toNat ≤ 57 := by simpa using (Char.isDigit_iff_toNat.mp h).2
  have hnat : '0'.toNat + digitValue c = c.toNat := by
    change 48 + (c.toNat - 48) = c.toNat
    omega
  rw [digitChar, hnat, Char.ofNat_toNat]

theorem digitValue_lt {c : Char} (h : c.isDigit = true) : digitValue c < 10 := by
  have hhigh : c.toNat ≤ 57 := by simpa using (Char.isDigit_iff_toNat.mp h).2
  change c.toNat - 48 < 10
  omega

theorem natChars_of_lt {n : Nat} (h : n < 10) : natChars n = [digitChar n] := by
  rw [natChars, if_pos h]

theorem natChars_snoc {n d : Nat} (hn : n ≠ 0) (hd : d < 10) :
    natChars (10 * n + d) = natChars n ++ [digitChar d] := by
  rw [natChars, if_neg (by omega), show (10 * n + d) / 10 = n by omega,
    show (10 * n + d) % 10 = d by omega]

/-- The digits of a positive number do not begin with a zero. -/
theorem head?_natChars {n : Nat} (hn : n ≠ 0) : (natChars n).head? ≠ some '0' := by
  induction n using Nat.strongRecOn with
  | ind n ih =>
    by_cases hlt : n < 10
    · have hdigit : ∀ d, d < 10 → d ≠ 0 → digitChar d ≠ '0' := by decide
      rw [natChars_of_lt hlt]
      simpa using hdigit n hlt hn
    · rw [natChars, if_neg hlt, List.head?_append_of_ne_nil _ (natChars_ne_nil _)]
      exact ih (n / 10) (by omega) (by omega)

/-- A number below a power of ten has no more digits than the power has zeros. -/
theorem length_natChars_le_iff {n k : Nat} (hk : k ≠ 0) :
    (natChars n).length ≤ k ↔ n < 10 ^ k := by
  induction n using Nat.strongRecOn generalizing k with
  | ind n ih =>
    obtain ⟨j, rfl⟩ := Nat.exists_eq_succ_of_ne_zero hk
    by_cases hlt : n < 10
    · have hpow : 10 ≤ 10 ^ (j + 1) := Nat.le_self_pow (Nat.succ_ne_zero j) 10
      rw [natChars_of_lt hlt]
      simp only [List.length_singleton, Nat.succ_eq_add_one]
      omega
    · rw [natChars, if_neg hlt, List.length_append, List.length_singleton, Nat.succ_eq_add_one,
        Nat.add_le_add_iff_right, Nat.pow_succ]
      by_cases hj : j = 0
      · -- two digits at least, and a number of ten at least
        have hpos := List.length_pos_iff.mpr (natChars_ne_nil (n / 10))
        subst hj
        omega
      · rw [ih (n / 10) (by omega) hj]
        omega

theorem pow_length_natChars_le {n : Nat} (hn : n ≠ 0) : 10 ^ ((natChars n).length - 1) ≤ n := by
  by_cases hone : (natChars n).length - 1 = 0
  · rw [hone]
    omega
  · have hpos := List.length_pos_iff.mpr (natChars_ne_nil n)
    rw [← Nat.not_lt, ← length_natChars_le_iff hone]
    omega

/-- A power of ten adds zeros at the end. -/
theorem natChars_mul_pow {n : Nat} (hn : n ≠ 0) (k : Nat) :
    natChars (n * 10 ^ k) = natChars n ++ List.replicate k '0' := by
  induction k with
  | zero => simp
  | succ k ih =>
    have hne : n * 10 ^ k ≠ 0 := Nat.mul_ne_zero hn (Nat.pow_pos (by decide)).ne'
    calc natChars (n * 10 ^ (k + 1))
        = natChars (10 * (n * 10 ^ k) + 0) := by congr 1; ring
      _ = natChars (n * 10 ^ k) ++ [digitChar 0] := natChars_snoc hne (by decide)
      _ = natChars n ++ (List.replicate k '0' ++ ['0']) := by
          rw [ih, List.append_assoc]
          rfl
      _ = natChars n ++ List.replicate (k + 1) '0' := by rw [List.replicate_succ']

/-- Digits without a zero in front of others are the digits of the number they denote. -/
theorem natChars_digitsValue {digits : List Char} (hall : ∀ c ∈ digits, c.isDigit = true)
    (hne : digits ≠ []) (hhead : digits = ['0'] ∨ digits.head? ≠ some '0') :
    natChars (digitsValue digits) = digits := by
  induction digits using List.reverseRecOn with
  | nil => exact absurd rfl hne
  | append_singleton front c ih =>
    have hc : c.isDigit = true := hall c (List.mem_append_right _ List.mem_cons_self)
    have hvalue : digitsValue (front ++ [c]) = 10 * digitsValue front + digitValue c := by
      rw [digitsValue_append]
      rfl
    by_cases hfront : front = []
    · subst hfront
      rw [hvalue, show 10 * digitsValue [] + digitValue c = digitValue c from Nat.zero_add _,
        natChars_of_lt (digitValue_lt hc), digitChar_digitValue hc]
      rfl
    · -- the digits in front begin with the same digit, which is no zero
      have hfirst : front.head? ≠ some '0' := by
        rcases hhead with hzero | hhead
        · have hlength := congrArg List.length hzero
          simp only [List.length_append, List.length_singleton, Nat.add_eq_right,
            List.length_eq_zero_iff] at hlength
          exact absurd hlength hfront
        · rwa [List.head?_append_of_ne_nil _ hfront] at hhead
      have hih := ih (fun d hd => hall d (List.mem_append_left _ hd)) hfront (Or.inr hfirst)
      have hpos : digitsValue front ≠ 0 := by
        intro hzero
        rw [hzero, natChars_of_lt (by decide)] at hih
        rw [← hih] at hfirst
        exact hfirst rfl
      rw [hvalue, natChars_snoc hpos (digitValue_lt hc), hih, digitChar_digitValue hc]

/-! ### Integers -/

theorem intText_injective : Function.Injective intText := by
  intro i j h
  have hparse := parseInt?_intText i
  rw [h, parseInt?_intText] at hparse
  exact (Option.some.inj hparse).symm

/-- An integer is spelled as it is printed: without a plus sign, without zeros in front of its
digits, and zero without a minus sign. -/
def Canonical (s : List Char) : Prop :=
  s = ['0'] ∨ s.head? ≠ some '+' ∧ s.head? ≠ some '0' ∧ s.take 2 ≠ ['-', '0']

instance : DecidablePred Canonical := fun s =>
  inferInstanceAs (Decidable (s = ['0'] ∨ _ ∧ _ ∧ _))

theorem canonical_natChars (n : Nat) : Canonical (natChars n) := by
  by_cases hn : n = 0
  · subst hn
    exact Or.inl (natChars_of_lt (by decide))
  · obtain ⟨c, rest, hcons⟩ := List.exists_cons_of_ne_nil (natChars_ne_nil n)
    have hdigit : c.isDigit = true := isDigit_of_mem_natChars n c (hcons ▸ List.mem_cons_self)
    have hhead := head?_natChars hn
    rw [hcons] at hhead
    rw [hcons]
    refine Or.inr ⟨?_, hhead, ?_⟩
    · rintro ⟨⟩
      cases hdigit
    · intro htake
      obtain ⟨rfl, -⟩ := List.cons.inj htake
      cases hdigit

theorem canonical_intText (i : Int) : Canonical (intText i).toList := by
  rw [toList_intText]
  split
  · next hneg =>
    obtain ⟨c, rest, hcons⟩ := List.exists_cons_of_ne_nil (natChars_ne_nil i.natAbs)
    have hhead := head?_natChars (n := i.natAbs) (by omega)
    rw [hcons] at hhead ⊢
    refine Or.inr ⟨by simp, by simp, ?_⟩
    rintro ⟨⟩
    exact hhead rfl
  · exact canonical_natChars _

theorem parseNat?_eq_some_iff {s : List Char} {n : Nat} :
    parseNat? s = some n ↔ s ≠ [] ∧ (∀ c ∈ s, c.isDigit = true) ∧ digitsValue s = n := by
  rw [parseNat?]
  split
  · next h =>
    simp only [Bool.and_eq_true, Bool.not_eq_true', List.isEmpty_eq_false_iff,
      List.all_eq_true] at h
    rw [Option.some.injEq]
    exact ⟨fun hn => ⟨h.1, h.2, hn⟩, fun hall => hall.2.2⟩
  · next h =>
    simp only [Bool.and_eq_true, Bool.not_eq_true', List.isEmpty_eq_false_iff,
      List.all_eq_true] at h
    simp only [reduceCtorEq, false_iff, not_and]
    exact fun hne hall => absurd ⟨hne, hall⟩ h

/-- Digits in canonical form are those of the number they denote. -/
theorem natChars_of_parseNat? {s : List Char} {n : Nat} (h : parseNat? s = some n)
    (hhead : s = ['0'] ∨ s.head? ≠ some '0') : natChars n = s := by
  obtain ⟨hne, hall, rfl⟩ := parseNat?_eq_some_iff.mp h
  exact natChars_digitsValue hall hne hhead

/-- Of the texts that denote an integer, the canonical one is the text of the integer. -/
theorem eq_intText_iff {s : List Char} {i : Int} (h : parseInt? s = some i) :
    s = (intText i).toList ↔ Canonical s := by
  constructor
  · rintro rfl
    exact canonical_intText i
  · intro hcanonical
    rw [parseInt?.eq_def] at h
    split at h
    · next digits =>
      -- a minus sign: the digits do not begin with a zero, so they denote a positive number
      obtain ⟨_, hcast, rfl⟩ := Option.map_eq_some_iff.mp h
      obtain ⟨n, hn, hpure⟩ := Option.bind_eq_some_iff.mp hcast
      cases hpure
      have hhead : digits.head? ≠ some '0' := by
        rcases hcanonical with hzero | ⟨-, -, htake⟩
        · cases hzero
        · intro hhead
          cases digits with
          | nil => cases hhead
          | cons c rest =>
            cases hhead
            exact htake rfl
      have hdigits := natChars_of_parseNat? hn (Or.inr hhead)
      have hpos : n ≠ 0 := by
        rintro rfl
        rw [← hdigits, natChars_of_lt (by decide)] at hhead
        exact hhead rfl
      rw [toList_intText, if_pos (by omega), Int.natAbs_neg, Int.natAbs_natCast, hdigits]
    · -- no canonical text has a plus sign
      rcases hcanonical with hzero | ⟨hplus, -⟩
      · cases hzero
      · exact absurd rfl hplus
    · obtain ⟨n, hn, rfl⟩ := Option.map_eq_some_iff.mp h
      have hhead : s = ['0'] ∨ s.head? ≠ some '0' := hcanonical.imp_right fun hrest => hrest.2.1
      have hnonneg : ¬ Int.ofNat n < 0 := by simp
      rw [toList_intText, if_neg hnonneg]
      exact (natChars_of_parseNat? hn hhead).symm

example : Canonical "-7".toList ∧ ¬ Canonical "007".toList := by decide

end TypedSheets.Number
