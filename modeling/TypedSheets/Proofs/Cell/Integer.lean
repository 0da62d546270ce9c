import Mathlib.Algebra.Field.Rat
import Mathlib.Data.Nat.Digits.Defs
import TypedSheets.Proofs.Cell.Scalar
import TypedSheets.Proofs.Number.Canonical
import TypedSheets.Proofs.Number.Rounding
import TypedSheets.Proofs.Text.Parts

/-!
# Integers in cells

A decimal text denotes an integer place by place, and a finite floating point number is a rational
number. What the parser of integers gives is the one, and what a number is taken for that has no
fraction is the other.

A scalar denotes a number: a truth value one or zero, a floating point number the rational that it
is, a text the decimal number between its white space. All kinds of integers are read through 128
bits with sign, and what they read is the number that the value denotes as long as these hold it.
They do not hold the upper half of the unsigned integers of 128 bits. A text of such a number is
refused, also where it was printed from one. A floating point number that is too large for them is
taken for their nearest bound, and no error is raised where the kind has that bound.

## Main definitions

* `Number.Digits`, `Number.Decimal` — digits, and digits behind a sign, that denote a number
* `Number.Binary.value?` — the rational number that a finite floating point number is
* `Value.Denotes` — the number that a value denotes
* `Value.Beyond` — a floating point number that is whole and too large for 128 bits with sign

## Main results

* `parseInt?_eq_some_iff` — what is read from decimal digits is the number they denote
* `value?_eq_intCast_iff` — a floating point number is taken for an integer if it is one
* `ScalarType.readWide_eq_ok_iff` — what is read through 128 bits, by the number that is denoted
* `ScalarType.read_int_denoted` — integers are read as they are denoted, with the exception
* `ScalarType.exists_read_not_denoted` — the exception
* `ScalarType.read_print_int_iff` — an integer reads back if 128 bits with sign hold it
* `ScalarType.read_print_greatest` — the greatest unsigned integer does not
-/

namespace TypedSheets.Number

/-! ### Decimal texts -/

/-- Decimal digits, at least one, with the number that they denote place by place. -/
structure Digits (s : List Char) (n : Nat) : Prop where
  ne_nil : s ≠ []
  all_digits : ∀ c ∈ s, c.isDigit = true
  value : Nat.ofDigits 10 (s.reverse.map digitValue) = n

/-- An integer is written in decimals: digits, perhaps behind a sign. -/
inductive Decimal : List Char → Int → Prop
  | unsigned {digits : List Char} {n : Nat} (h : Digits digits n) : Decimal digits n
  | plus {digits : List Char} {n : Nat} (h : Digits digits n) : Decimal ('+' :: digits) n
  | minus {digits : List Char} {n : Nat} (h : Digits digits n) : Decimal ('-' :: digits) (-n)

theorem ofDigits_reverse (digits : List Char) :
    Nat.ofDigits 10 (digits.reverse.map digitValue) = digitsValue digits := by
  induction digits using List.reverseRecOn with
  | nil => rfl
  | append_singleton front c ih =>
    rw [List.reverse_append, List.reverse_singleton, List.singleton_append, List.map_cons,
      Nat.ofDigits_cons, ih, digitsValue_append]
    exact Nat.add_comm _ _

theorem parseNat?_eq_some_iff_digits {s : List Char} {n : Nat} :
    parseNat? s = some n ↔ Digits s n := by
  rw [parseNat?_eq_some_iff, ← ofDigits_reverse]
  exact ⟨fun ⟨hne, hall, hvalue⟩ => ⟨hne, hall, hvalue⟩,
    fun h => ⟨h.ne_nil, h.all_digits, h.value⟩⟩

/-- A sign is no digit. -/
theorem Digits.not_mem {s : List Char} {n : Nat} (h : Digits s n) {c : Char}
    (hc : c.isDigit = false) : c ∉ s := by
  intro hmem
  rw [h.all_digits c hmem] at hc
  cases hc

/-- What is read from a text of digits and a sign is the integer that it denotes. -/
theorem parseInt?_eq_some_iff {s : List Char} {i : Int} : parseInt? s = some i ↔ Decimal s i := by
  constructor
  · intro h
    rw [parseInt?.eq_def] at h
    split at h
    · obtain ⟨_, hcast, rfl⟩ := Option.map_eq_some_iff.mp h
      obtain ⟨n, hn, hpure⟩ := Option.bind_eq_some_iff.mp hcast
      cases hpure
      exact .minus (parseNat?_eq_some_iff_digits.mp hn)
    · obtain ⟨n, hn, rfl⟩ := Option.map_eq_some_iff.mp h
      exact .plus (parseNat?_eq_some_iff_digits.mp hn)
    · obtain ⟨n, hn, rfl⟩ := Option.map_eq_some_iff.mp h
      exact .unsigned (parseNat?_eq_some_iff_digits.mp hn)
  · rintro (h | h | h)
    -- a text of digits starts with neither sign, so it is read as it stands
    · next n =>
      have hparse := parseNat?_eq_some_iff_digits.mpr h
      rw [parseInt?.eq_def]
      split
      · exact absurd List.mem_cons_self (h.not_mem rfl)
      · exact absurd List.mem_cons_self (h.not_mem rfl)
      · rw [hparse]
        rfl
    · rw [parseInt?, parseNat?_eq_some_iff_digits.mpr h]
      rfl
    · rw [parseInt?, parseNat?_eq_some_iff_digits.mpr h]
      rfl

/-! ### Floating point numbers -/

namespace Binary

variable {f : Format}

/-- The rational number that a finite number is. -/
def value? (x : Binary f) : Option ℚ :=
  match x.decode with
  | .finite s m e => some ((if s then -1 else 1) * m * 2 ^ e)
  | _ => none

/-- The scale of a number as a quotient of whole powers. -/
theorem two_zpow_eq (e : Int) : (2 : ℚ) ^ e = 2 ^ e.toNat / 2 ^ (-e).toNat := by
  rcases Int.le_total 0 e with h | h
  · rw [show (-e).toNat = 0 by omega, pow_zero, div_one, ← zpow_natCast, Int.toNat_of_nonneg h]
  · rw [show e.toNat = 0 by omega, pow_zero, one_div, ← zpow_natCast, ← zpow_neg,
      Int.toNat_of_nonneg (by omega), neg_neg]

/-- A quotient is an integer if the division leaves no remainder. -/
theorem div_eq_intCast_iff (n : Nat) {d : Nat} (hd : d ≠ 0) (i : Int) :
    (n : ℚ) / d = i ↔ n % d = 0 ∧ ((n / d : Nat) : Int) = i := by
  have hscaled : (n : ℚ) / d = i ↔ (n : Int) = i * d := by
    rw [div_eq_iff (Nat.cast_ne_zero.mpr hd)]
    norm_cast
  rw [hscaled]
  constructor
  · intro h
    have hd' : (d : Int) ≠ 0 := Int.natCast_ne_zero.mpr hd
    refine ⟨?_, ?_⟩
    · have hmod : (n : Int) % d = 0 := by rw [h, Int.mul_emod_left]
      exact_mod_cast hmod
    · rw [Int.natCast_ediv, h, Int.mul_ediv_cancel _ hd']
  · rintro ⟨hmod, rfl⟩
    exact_mod_cast (Nat.div_mul_cancel (Nat.dvd_of_mod_eq_zero hmod)).symm

/-- A number is taken for an integer exactly if it is that integer. -/
theorem value?_eq_intCast_iff {x : Binary f} {i : Int} :
    x.value? = some (i : ℚ) ↔ x.wholePart? = some i := by
  rw [value?, wholePart?]
  cases x.decode with
  | nan s => simp
  | infinite s => simp
  | finite s m e =>
    -- the value as one quotient: it is whole exactly if the remainder is zero
    have hmagnitude : (m : ℚ) * 2 ^ e = ((m * 2 ^ e.toNat : Nat) : ℚ) / (2 ^ (-e).toNat : Nat) := by
      rw [two_zpow_eq]
      push_cast
      ring
    have hdiv := div_eq_intCast_iff (m * 2 ^ e.toNat) (d := 2 ^ (-e).toNat) (Nat.two_pow_pos _).ne'
    simp only [scaled_eq, neg_neg, Nat.one_mul, mul_assoc, hmagnitude, Option.some.injEq]
    generalize m * 2 ^ e.toNat = n at hdiv ⊢
    generalize 2 ^ (-e).toNat = d at hdiv ⊢
    cases s with
    | false =>
      rw [if_neg Bool.false_ne_true, one_mul, hdiv]
      by_cases hmod : n % d = 0 <;> simp [hmod]
    | true =>
      have hneg : -1 * ((n : ℚ) / d) = i ↔ (n : ℚ) / d = (-i : Int) := by
        rw [neg_one_mul, neg_eq_iff_eq_neg, Int.cast_neg]
      rw [if_pos rfl, hneg, hdiv, ← neg_eq_iff_eq_neg]
      by_cases hmod : n % d = 0 <;> simp [hmod]

end Binary

end TypedSheets.Number

/-! ## Integers in cells -/

namespace TypedSheets

open Number

/-! ### What a value denotes -/

namespace Value

/-- The number that a scalar denotes. Nothing and a blank text stand for zero; a text denotes the
decimal number that is left of it without white space. -/
def Denotes : Value → ℚ → Prop
  | .null, q => q = 0
  | .bool b, q => q = if b then 1 else 0
  | .int i, q => q = i.val
  | .float d, q => d.value? = some q
  | .text s, q => Text.isBlank s = true ∧ q = 0 ∨
      ∃ core i, Text.Padded Text.isBlankChar core s.toList ∧ Decimal core i ∧ q = i
  | _, _ => False

/-- A floating point number that is whole and too large for 128 bits with sign. -/
def Beyond (v : Value) : Prop :=
  ∃ d, ∃ i : Int, v = .float d ∧ d.value? = some (i : ℚ) ∧ ¬ IntKind.i128.Holds i

theorem decimal_ne_nil {s : List Char} {i : Int} (h : Decimal s i) : s ≠ [] := by
  cases h with
  | unsigned h => exact h.ne_nil
  | plus h => exact List.cons_ne_nil _ _
  | minus h => exact List.cons_ne_nil _ _

/-- Digits and signs are no white space. -/
theorem trimChars_decimal {s : List Char} {i : Int} (h : Decimal s i) : Text.trimChars s = s := by
  refine Text.trimChars_eq_self ?_
  have hdigits : ∀ {digits : List Char} {n : Nat}, Digits digits n →
      ∀ c ∈ digits, Text.isBlankChar c = false :=
    fun h c hc => Text.isBlankChar_of_isDigit (h.all_digits c hc)
  cases h with
  | unsigned h => exact hdigits h
  | plus h => exact List.forall_mem_cons.mpr ⟨by decide, hdigits h⟩
  | minus h => exact List.forall_mem_cons.mpr ⟨by decide, hdigits h⟩

/-- A text denotes the number that its trimmed characters are parsed as. -/
theorem exists_padded_decimal_iff {s : List Char} {i : Int} :
    (∃ core, Text.Padded Text.isBlankChar core s ∧ Decimal core i) ↔
      parseInt? (Text.trimChars s) = some i := by
  rw [parseInt?_eq_some_iff]
  constructor
  · rintro ⟨core, hpadded, hcore⟩
    rwa [Text.trimChars_of_padded hpadded, trimChars_decimal hcore]
  · exact fun h => ⟨_, Text.padded_trimChars s, h⟩

theorem denotes_text_of_isBlank {s : String} (h : Text.isBlank s = true) {q : ℚ} :
    (Value.text s).Denotes q ↔ q = 0 := by
  refine ⟨?_, fun hq => Or.inl ⟨h, hq⟩⟩
  rintro (⟨-, hq⟩ | ⟨core, i, hpadded, hcore, -⟩)
  · exact hq
  · -- nothing is left of the text
    have hnil : Text.trimChars s.toList = [] := by
      rw [← Text.toList_trim, Text.trim_of_isBlank h]
      rfl
    rw [Text.trimChars_of_padded hpadded, trimChars_decimal hcore] at hnil
    exact absurd hnil (decimal_ne_nil hcore)

theorem denotes_text_of_not_isBlank {s : String} (h : Text.isBlank s = false) {i : Int} :
    (Value.text s).Denotes i ↔ parseInt? (Text.trimChars s.toList) = some i := by
  rw [← exists_padded_decimal_iff]
  constructor
  · rintro (⟨hblank, -⟩ | ⟨core, j, hpadded, hcore, hij⟩)
    · rw [h] at hblank
      cases hblank
    · obtain rfl := Int.cast_injective hij
      exact ⟨core, hpadded, hcore⟩
  · rintro ⟨core, hpadded, hcore⟩
    exact Or.inr ⟨core, i, hpadded, hcore, rfl⟩

end Value

/-! ### Reading -/

namespace ScalarType

variable {k : IntKind} {v : Value}

/-- What 128 bits with sign make of an integer: themselves if they hold it, and of a floating point
number the nearest bound otherwise. -/
def WideOf (v : Value) (i w : Int) : Prop :=
  (IntKind.i128.Holds i ∨ ∃ d, v = .float d) ∧ w = IntKind.i128.clamp i

/-- An integer that 128 bits hold is itself there. -/
theorem wideOf_iff_of_holds {i w : Int} (h : IntKind.i128.Holds i) : WideOf v i w ↔ w = i := by
  rw [WideOf, IntKind.clamp_of_holds h]
  exact ⟨fun hw => hw.2, fun hw => ⟨Or.inl h, hw⟩⟩

/-- A value that denotes one integer, which 128 bits hold, is read as that integer. -/
theorem ok_eq_ok_iff_of_denotes {j w : Int} (hj : IntKind.i128.Holds j)
    (hdenotes : ∀ i : Int, v.Denotes i ↔ i = j) :
    (Except.ok j : Except CellError Int) = .ok w ↔ ∃ i : Int, v.Denotes i ∧ WideOf v i w := by
  simp only [hdenotes, exists_eq_left, wideOf_iff_of_holds hj, Except.ok.injEq]
  exact eq_comm

/-- What is read through 128 bits with sign is the integer that the value denotes, as far as they
hold it. -/
theorem readWide_eq_ok_iff {expected : String} {w : Int} :
    readWide expected v = .ok w ↔ ∃ i : Int, v.Denotes i ∧ WideOf v i w := by
  -- null, truth values and integers denote one number that fits; floats and texts have to be looked
  -- at
  cases v with
  | null => exact ok_eq_ok_iff_of_denotes (by decide) fun i => Int.cast_eq_zero
  | bool b =>
    refine ok_eq_ok_iff_of_denotes (by cases b <;> decide) fun i => ?_
    rw [Value.Denotes]
    cases b <;> norm_cast
  | int n => exact ok_eq_ok_iff_of_denotes (holds_i128_of_i64 n.property) fun i => Int.cast_inj
  | float d =>
    simp only [Value.Denotes, Binary.value?_eq_intCast_iff]
    rw [readWide]
    cases hwhole : d.wholePart? with
    | none => simp
    | some i => simp [WideOf, eq_comm]
  | text s =>
    rw [readWide]
    by_cases hblank : Text.isBlank s = true
    · rw [if_pos hblank]
      refine ok_eq_ok_iff_of_denotes (by decide) fun i => ?_
      rw [Value.denotes_text_of_isBlank hblank, Int.cast_eq_zero]
    · rw [if_neg hblank]
      simp only [Value.denotes_text_of_not_isBlank (Bool.not_eq_true _ ▸ hblank)]
      cases hparse : parseInt? (Text.trimChars s.toList) with
      | none => simp
      | some i =>
        by_cases hi : IntKind.i128.Holds i
        · have hwide : IntKind.i128.ofInt? i = some ⟨i, hi⟩ := IntKind.ofInt?_eq_some_iff.mpr rfl
          simp [hwide, wideOf_iff_of_holds hi, eq_comm]
        · have hwide : IntKind.i128.ofInt? i = none := IntKind.ofInt?_eq_none_iff.mpr hi
          simp [hwide, WideOf, hi]
  | _ => simp [readWide, Value.Denotes]

theorem read_int_eq_ok_iff {n : k.El} : (ScalarType.int k).read v = .ok n ↔
    ∃ i : Int, v.Denotes i ∧ WideOf v i n.val :=
  readInt_eq_ok_iff.trans readWide_eq_ok_iff

/-- A narrower kind does not have the bounds of 128 bits with sign. -/
theorem not_holds_clamp (hk : k.bits ≠ 128) {i : Int} (hi : ¬ IntKind.i128.Holds i) :
    ¬ k.Holds (IntKind.i128.clamp i) := by
  have hbounds : ¬ k.Holds IntKind.i128.lo ∧ ¬ k.Holds IntKind.i128.hi := by
    revert hk
    cases k <;> decide
  have hclamp : IntKind.i128.clamp i = IntKind.i128.lo ∨
      IntKind.i128.clamp i = IntKind.i128.hi := by
    rw [IntKind.Holds, IntKind.lo_i128, IntKind.hi_i128] at hi
    rw [IntKind.clamp, IntKind.lo_i128, IntKind.hi_i128]
    omega
  rcases hclamp with h | h <;> rw [h]
  · exact hbounds.1
  · exact hbounds.2

/-- An integer of any kind is read as the number that the value denotes, if 128 bits with sign hold
it; a floating point number that is not whole, or not of the kind, is refused. The kinds of 128 bits
make an exception of whole floating point numbers beyond 128 bits with sign: these are read as the
nearest bound, if the kind has it. -/
theorem read_int_denoted (k : IntKind) (v : Value) :
    (¬ (k.bits = 128 ∧ v.Beyond) →
      (∀ n : k.El, (ScalarType.int k).read v = .ok n ↔
        v.Denotes n.val ∧ IntKind.i128.Holds n.val) ∧
      ∀ d, v = .float d → (∀ i : Int, k.Holds i → d.value? ≠ some (i : ℚ)) →
        ∃ e, (ScalarType.int k).read v = .error e) ∧
    ∀ d, ∀ i : Int, v = .float d → d.value? = some (i : ℚ) → ¬ IntKind.i128.Holds i →
      ∀ n : k.El, (ScalarType.int k).read v = .ok n ↔ n.val = IntKind.i128.clamp i := by
  refine ⟨fun hbeyond => ?_, ?_⟩
  · have hread : ∀ n : k.El, (ScalarType.int k).read v = .ok n ↔
        v.Denotes n.val ∧ IntKind.i128.Holds n.val := by
      intro n
      rw [read_int_eq_ok_iff]
      constructor
      · rintro ⟨i, hdenotes, hwide⟩
        by_cases hi : IntKind.i128.Holds i
        · rw [(wideOf_iff_of_holds hi).mp hwide]
          exact ⟨hdenotes, hi⟩
        · -- a floating point number beyond the bounds, and a narrower kind without these
          obtain ⟨d, rfl⟩ := hwide.1.resolve_left hi
          have hk : k.bits ≠ 128 := fun hk => hbeyond ⟨hk, d, i, rfl, hdenotes, hi⟩
          exact absurd (hwide.2 ▸ n.property) (not_holds_clamp hk hi)
      · rintro ⟨hdenotes, hn⟩
        exact ⟨n.val, hdenotes, (wideOf_iff_of_holds hn).mpr rfl⟩
    refine ⟨hread, ?_⟩
    rintro d rfl hnone
    cases hresult : (ScalarType.int k).read (.float d) with
    | error e => exact ⟨e, rfl⟩
    | ok n => exact absurd ((hread n).mp hresult).1 (hnone n.val n.property)
  · rintro d i rfl hvalue hi n
    rw [read_int_eq_ok_iff]
    constructor
    · rintro ⟨j, hdenotes, hwide⟩
      obtain rfl : i = j := Int.cast_injective (Option.some.inj (hvalue.symm.trans hdenotes))
      exact hwide.2
    · exact fun hn => ⟨i, hvalue, Or.inr ⟨d, rfl⟩, hn⟩

/-- From `2.0` two is read as a byte; `2.5` and `300.0` are refused. -/
theorem read_int_denoted_byte :
    ¬ (IntKind.u8.bits = 128 ∧ (Value.float (Binary.ofInt .double 2)).Beyond) ∧
    (ScalarType.int .u8).read (.float (Binary.ofInt .double 2)) =
      .ok (⟨2, by decide⟩ : IntKind.u8.El) ∧
    (∃ e, (ScalarType.int .u8).read (.float (Binary.ofRatio .double false 5 2)) = .error e) ∧
    ∃ e, (ScalarType.int .u8).read (.float (Binary.ofInt .double 300)) = .error e := by
  have hnarrow : ∀ v, ¬ (IntKind.u8.bits = 128 ∧ Value.Beyond v) :=
    fun _ h => absurd h.1 (by decide)
  refine ⟨hnarrow _, ?_, ?_, ?_⟩
  · refine (((read_int_denoted .u8 _).1 (hnarrow _)).1 ⟨2, by decide⟩).mpr ⟨?_, by decide⟩
    exact Binary.value?_eq_intCast_iff.mpr (by decide)
  · refine ((read_int_denoted .u8 _).1 (hnarrow _)).2 _ rfl fun i _ hvalue => ?_
    have hwhole : (Binary.ofRatio .double false 5 2).wholePart? = none := by decide
    rw [Binary.value?_eq_intCast_iff, hwhole] at hvalue
    cases hvalue
  · refine ((read_int_denoted .u8 _).1 (hnarrow _)).2 _ rfl fun i hi hvalue => ?_
    have hwhole : (Binary.ofInt .double 300).wholePart? = some 300 := by decide
    rw [Binary.value?_eq_intCast_iff, hwhole] at hvalue
    rw [← Option.some.inj hvalue] at hi
    exact absurd hi (by decide)

/-- `2 ^ 127`, which 128 bits without sign hold and 128 bits with sign do not, is read as
`2 ^ 127 - 1` by both. -/
theorem exists_read_not_denoted :
    ∃ d : Double, d.bits.val = 0x47E0000000000000 ∧ d.value? = some ((2 ^ 127 : Int) : ℚ) ∧
      IntKind.u128.Holds (2 ^ 127) ∧ ¬ IntKind.i128.Holds (2 ^ 127) ∧
      (∃ n : IntKind.u128.El, (ScalarType.int .u128).read (.float d) = .ok n ∧
        n.val = 2 ^ 127 - 1 ∧ ¬ (Value.float d).Denotes n.val) ∧
      ∃ n : IntKind.i128.El, (ScalarType.int .i128).read (.float d) = .ok n ∧
        n.val = 2 ^ 127 - 1 ∧ ¬ (Value.float d).Denotes n.val := by
  have hvalue : (Binary.ofBits .double 0x47E0000000000000).value? =
      some ((2 ^ 127 : Int) : ℚ) :=
    Binary.value?_eq_intCast_iff.mpr (by decide)
  have hdiffers : ¬ (Value.float (Binary.ofBits .double 0x47E0000000000000)).Denotes
      ((2 ^ 127 - 1 : Int) : ℚ) := by
    intro h
    have hsame := Int.cast_injective (Option.some.inj (hvalue.symm.trans h))
    exact absurd hsame (by decide)
  -- the number is just beyond the widest signed range, to which it is cut
  have hclamp : IntKind.i128.clamp (2 ^ 127) = 2 ^ 127 - 1 := by decide
  have hread : ∀ (k : IntKind) (h : k.Holds (2 ^ 127 - 1)), (ScalarType.int k).read
      (.float (Binary.ofBits .double 0x47E0000000000000)) = .ok (⟨2 ^ 127 - 1, h⟩ : k.El) :=
    fun k h => read_int_eq_ok_iff.mpr ⟨2 ^ 127, hvalue, Or.inr ⟨_, rfl⟩, hclamp.symm⟩
  exact ⟨_, by decide, hvalue, by decide, by decide,
    ⟨_, hread .u128 (by decide), rfl, hdiffers⟩, ⟨_, hread .i128 (by decide), rfl, hdiffers⟩⟩

/-! ### Printing -/

theorem printInt_of_holds {i : Int} (h : IntKind.i64.Holds i) : printInt i = .int ⟨i, h⟩ := by
  have hnarrow : IntKind.i64.ofInt? i = some ⟨i, h⟩ := IntKind.ofInt?_eq_some_iff.mpr rfl
  rw [printInt, hnarrow]

theorem printInt_of_not_holds {i : Int} (h : ¬ IntKind.i64.Holds i) :
    printInt i = .text (intText i) := by
  rw [printInt, IntKind.ofInt?_eq_none_iff.mpr h]

/-- What 128 bits with sign do not hold is not read from what it prints to. -/
theorem readInt_printInt_of_not_holds (k : IntKind) {i : Int} (h : ¬ IntKind.i128.Holds i) :
    readInt k (printInt i) = .error (.parse (intText i) k.name) := by
  rw [printInt_of_not_holds fun hi => h (holds_i128_of_i64 hi), readInt, readWide_intText,
    if_neg h]

/-- The kinds other than that of 128 bits without sign are held by 128 bits with sign. -/
theorem eq_u128_of_not_holds {x : k.El} (h : ¬ IntKind.i128.Holds x.val) : k = .u128 := by
  have hbounds : k = .u128 ∨ IntKind.i128.lo ≤ k.lo ∧ k.hi ≤ IntKind.i128.hi := by
    cases k <;> decide
  refine hbounds.resolve_right fun ⟨hlo, hhi⟩ => h ?_
  exact ⟨hlo.trans x.property.1, x.property.2.trans hhi⟩

/-- The text of an integer denotes it. -/
theorem denotes_intText (i : Int) : (Value.text (intText i)).Denotes i := by
  rw [Value.denotes_text_of_not_isBlank (isBlank_intText i), trimChars_intText, parseInt?_intText]

/-- An integer of any kind prints to a value that denotes it, an integer of 64 bits with sign or
else its decimal text. It reads back exactly if 128 bits with sign hold it; only the kind without
sign has integers that they do not hold, and the text of such an integer is refused. -/
theorem read_print_int_iff (k : IntKind) (x : k.El) :
    ((ScalarType.int k).print x).Denotes x.val ∧
    (∀ h : IntKind.i64.Holds x.val, (ScalarType.int k).print x = .int ⟨x.val, h⟩) ∧
    (¬ IntKind.i64.Holds x.val → (ScalarType.int k).print x = .text (intText x.val)) ∧
    ((ScalarType.int k).read ((ScalarType.int k).print x) = .ok x ↔ IntKind.i128.Holds x.val) ∧
    (¬ IntKind.i128.Holds x.val → k = .u128 ∧
      (ScalarType.int k).read ((ScalarType.int k).print x) =
        .error (.parse (intText x.val) k.name)) := by
  have hdenotes : (printInt x.val).Denotes x.val := by
    by_cases h : IntKind.i64.Holds x.val
    · rw [printInt_of_holds h]
      rfl
    · rw [printInt_of_not_holds h]
      exact denotes_intText x.val
  -- what is read is clamped to the widest signed range, which only the widest unsigned kind exceeds
  refine ⟨hdenotes, fun h => printInt_of_holds h, fun h => printInt_of_not_holds h, ⟨?_, ?_⟩,
    fun h => ⟨eq_u128_of_not_holds h, readInt_printInt_of_not_holds k h⟩⟩
  · intro hread
    by_contra h
    cases hread.symm.trans (readInt_printInt_of_not_holds k h)
  · intro h
    exact read_int_eq_ok_iff.mpr ⟨x.val, hdenotes, (wideOf_iff_of_holds h).mpr rfl⟩

/-- The greatest integer of 128 bits without sign is not read from the text that it prints to. -/
theorem read_print_greatest :
    (ScalarType.int .u128).read ((ScalarType.int .u128).print
      (⟨2 ^ 128 - 1, by decide⟩ : IntKind.u128.El)) =
        .error (.parse "340282366920938463463374607431768211455" "u128") := by
  have htext : intText (2 ^ 128 - 1) = "340282366920938463463374607431768211455" := by
    decide +kernel
  have hrefused := readInt_printInt_of_not_holds .u128 (i := 2 ^ 128 - 1) (by decide)
  rwa [htext] at hrefused

end ScalarType

end TypedSheets
