import Mathlib.Algebra.Order.Ring.Nat
import Mathlib.Tactic.Ring
import TypedSheets.Number.Binary
import TypedSheets.Number.Decimal

/-!
# Rounding and widening

A number that a format can hold is rounded to itself, in whatever way it is written as a quotient.

Cells hold numbers of 64 bits. A number of 32 bits is widened when it is printed and narrowed when
it is read again, and comes back with the same bits.

## Main definitions

* `Format.Holds` — a significand and an exponent that the format can hold
* `Format.magnitude` — the bits of such a magnitude
* `Binary.Quiet` — if it is no number, it is the quiet NaN of its sign

## Main results

* `ofScaled_scale` — rounding depends on the number and not on how it is scaled
* `ofScaled_of_holds` — a number that the format holds is not changed by rounding
* `decode_withSign` — its bits decode to what it was
* `convert_quiet`, `ofInt_quiet`, `parse?_quiet` — whatever is read is quiet
* `convert_single_double` — quiet numbers survive widening
-/

namespace TypedSheets.Number

/-! ### Division -/

theorem roundDiv_mul_right (num den : Nat) {c : Nat} (hc : 0 < c) :
    roundDiv (num * c) (den * c) = roundDiv num den := by
  have hdiv : num * c / (den * c) = num / den := Nat.mul_div_mul_right _ _ hc
  have hmod : num * c % (den * c) = num % den * c := Nat.mul_mod_mul_right _ _ _
  have htwice : 2 * (num % den * c) = 2 * (num % den) * c := by ring
  simp only [roundDiv, hdiv, hmod, htwice, Nat.mul_lt_mul_right hc]

theorem roundDiv_mul_self (m : Nat) {d : Nat} (hd : 0 < d) : roundDiv (m * d) d = m := by
  simp [roundDiv, Nat.mul_div_cancel _ hd, hd]

theorem log2_mul_two_pow {n : Nat} (hn : n ≠ 0) (k : Nat) : (n * 2 ^ k).log2 = n.log2 + k := by
  induction k with
  | zero => simp
  | succ k ih =>
    have hpos : n * 2 ^ k ≠ 0 := Nat.mul_ne_zero hn (Nat.two_pow_pos k).ne'
    rw [show n * 2 ^ (k + 1) = 2 * (n * 2 ^ k) by ring, Nat.log2_two_mul hpos, ih]
    omega

theorem scaled_eq (num den : Nat) (e : Int) :
    scaled num den e = (num * 2 ^ (-e).toNat, den * 2 ^ e.toNat) := by
  unfold scaled
  split
  · next h => simp [Nat.shiftLeft_eq, show (-e).toNat = 0 by omega]
  · next h => simp [Nat.shiftLeft_eq, show e.toNat = 0 by omega]

namespace Format

variable {f : Format}

theorem fractions_eq (f : Format) : f.fractions = 2 ^ (f.precision - 1) := by
  rw [fractions, Nat.shiftLeft_eq, Nat.one_mul]

theorem infinityBits_lt_signBit (f : Format) : f.infinityBits < f.signBit := by
  have htop : f.topField < 2 ^ f.exponentBits := by
    have hpos := Nat.two_pow_pos f.exponentBits
    rw [topField, Nat.shiftLeft_eq]
    omega
  rw [infinityBits, signBit, Nat.shiftLeft_eq, Nat.mul_comm f.fractions]
  exact Nat.mul_lt_mul_of_pos_right htop f.fractions_pos

/-- The bits of the magnitude `m · 2 ^ e`. -/
def magnitude (f : Format) (m : Nat) (e : Int) : Nat := (e - f.minExponent).toNat * f.fractions + m

/-- The format holds the finite number `m · 2 ^ e`, and `e` is the exponent it has there. -/
structure Holds (f : Format) (m : Nat) (e : Int) : Prop where
  lt : m < 2 * f.fractions
  minExponent_le : f.minExponent ≤ e
  normal_or : f.fractions ≤ m ∨ e = f.minExponent
  finite : f.magnitude m e < f.infinityBits

end Format

/-! ### Rounding -/

variable {f : Format} {s : Bool} {m : Nat} {e : Int}

theorem roundingExponent_mul {num den : Nat} (hnum : num ≠ 0) (hden : den ≠ 0) (j : Nat) :
    Binary.roundingExponent f (num * 2 ^ j) (den * 2 ^ j) =
      Binary.roundingExponent f num den := by
  have hguess : ((num * 2 ^ j).log2 : Int) - ((den * 2 ^ j).log2 : Int) =
      (num.log2 : Int) - (den.log2 : Int) := by
    rw [log2_mul_two_pow hnum, log2_mul_two_pow hden]
    omega
  have hdiv : ∀ g : Int, num * 2 ^ j * 2 ^ (-g).toNat / (den * 2 ^ j * 2 ^ g.toNat) =
      num * 2 ^ (-g).toNat / (den * 2 ^ g.toNat) := by
    intro g
    rw [Nat.mul_right_comm num, Nat.mul_right_comm den,
      Nat.mul_div_mul_right _ _ (Nat.two_pow_pos j)]
  simp only [Binary.roundingExponent, scaled_eq, hguess, hdiv]

theorem magnitudeOfRatio_mul (f : Format) {num den : Nat} (hden : den ≠ 0) (j : Nat) :
    Binary.magnitudeOfRatio f (num * 2 ^ j) (den * 2 ^ j) =
      Binary.magnitudeOfRatio f num den := by
  have hj := Nat.two_pow_pos j
  by_cases hnum : num = 0
  · simp [Binary.magnitudeOfRatio, hnum]
  · have hzero : (num * 2 ^ j == 0) = (num == 0) := by simp [hnum]
    have hround : ∀ g : Int, roundDiv (num * 2 ^ j * 2 ^ (-g).toNat) (den * 2 ^ j * 2 ^ g.toNat) =
        roundDiv (num * 2 ^ (-g).toNat) (den * 2 ^ g.toNat) := by
      intro g
      rw [Nat.mul_right_comm num, Nat.mul_right_comm den, roundDiv_mul_right _ _ hj]
    simp only [Binary.magnitudeOfRatio, hzero, roundingExponent_mul hnum hden, scaled_eq, hround]

theorem ofScaled_eq (f : Format) (s : Bool) (m : Nat) (e : Int) :
    Binary.ofScaled f s m e =
      Binary.withSign f s (Binary.magnitudeOfRatio f (m * 2 ^ e.toNat) (2 ^ (-e).toNat)) := by
  simp only [Binary.ofScaled, Binary.ofRatio, scaled_eq, neg_neg, Nat.one_mul]

/-- Rounding depends on the number and not on how it is scaled. -/
theorem ofScaled_scale (f : Format) (s : Bool) (m : Nat) (e : Int) (k : Nat) :
    Binary.ofScaled f s (m * 2 ^ k) (e - k) = Binary.ofScaled f s m e := by
  -- the finer quotient has both terms of the coarser one, times one power of two
  obtain ⟨j, hnum, hden⟩ : ∃ j : Nat, k + (e - k).toNat = e.toNat + j ∧
      (-(e - k)).toNat = (-e).toNat + j := by
    refine ⟨(-(e - k)).toNat - (-e).toNat, ?_, ?_⟩ <;> omega
  rw [ofScaled_eq, ofScaled_eq, hden, Nat.pow_add 2 (-e).toNat j, Nat.mul_assoc, ← Nat.pow_add,
    hnum, Nat.pow_add, ← Nat.mul_assoc, magnitudeOfRatio_mul f (Nat.two_pow_pos _).ne']

theorem ofScaled_zero (f : Format) (s : Bool) (e : Int) :
    Binary.ofScaled f s 0 e = Binary.withSign f s 0 := by
  simp [ofScaled_eq, Binary.magnitudeOfRatio]

/-- The exponent at which a quotient of a number and a power of two is rounded. -/
theorem roundingExponent_two_pow (hm : m ≠ 0) (a b : Nat) :
    Binary.roundingExponent f (m * 2 ^ a) (2 ^ b) =
      max f.minExponent ((m.log2 : Int) + a - b - ((f.precision - 1 : Nat) : Int)) := by
  have hself : 2 ^ m.log2 ≤ m := Nat.log2_self_le hm
  have hguess : ((m * 2 ^ a).log2 : Int) - ((2 ^ b).log2 : Int) - ((f.precision - 1 : Nat) : Int) =
      (m.log2 : Int) + a - b - ((f.precision - 1 : Nat) : Int) := by
    rw [log2_mul_two_pow hm, Nat.log2_two_pow]
    omega
  simp only [Binary.roundingExponent, scaled_eq, hguess]
  generalize hg : (m.log2 : Int) + a - b - ((f.precision - 1 : Nat) : Int) = g
  -- the quotient at the guessed exponent has as many bits as the format
  have hle : ¬ m * 2 ^ a * 2 ^ (-g).toNat / (2 ^ b * 2 ^ g.toNat) < f.fractions := by
    rw [Nat.not_lt, Nat.le_div_iff_mul_le (Nat.mul_pos (Nat.two_pow_pos _) (Nat.two_pow_pos _)),
      f.fractions_eq, ← Nat.pow_add, ← Nat.pow_add, Nat.mul_assoc, ← Nat.pow_add]
    calc 2 ^ (f.precision - 1 + (b + g.toNat))
        = 2 ^ (m.log2 + (a + (-g).toNat)) := by congr 1; omega
      _ = 2 ^ m.log2 * 2 ^ (a + (-g).toNat) := Nat.pow_add _ _ _
      _ ≤ m * 2 ^ (a + (-g).toNat) := Nat.mul_le_mul_right _ hself
  rw [if_neg hle]

theorem roundingExponent_of_holds (hm : m ≠ 0) (h : f.Holds m e) (a b : Nat)
    (hab : (a : Int) - b = e) : Binary.roundingExponent f (m * 2 ^ a) (2 ^ b) = e := by
  rw [roundingExponent_two_pow hm]
  have hlt : m < 2 ^ (f.precision - 1 + 1) := by
    rw [Nat.pow_succ, ← f.fractions_eq]
    exact h.lt.trans_eq (Nat.mul_comm _ _)
  have hlog : m.log2 < f.precision - 1 + 1 := (Nat.log2_lt hm).mpr hlt
  have hmin := h.minExponent_le
  rcases h.normal_or with hnormal | hsub
  · have hge : f.precision - 1 ≤ m.log2 := (Nat.le_log2 hm).mpr (f.fractions_eq ▸ hnormal)
    omega
  · omega

/-- A number that the format holds is not changed by rounding. -/
theorem ofScaled_of_holds (s : Bool) (h : f.Holds m e) :
    Binary.ofScaled f s m e = Binary.withSign f s (f.magnitude m e) := by
  by_cases hm : m = 0
  · -- zero has the least exponent
    have he : e = f.minExponent := h.normal_or.resolve_left (by
      have := f.fractions_pos
      omega)
    rw [hm, ofScaled_zero, he, Format.magnitude]
    simp
  · have hexp := roundingExponent_of_holds hm h e.toNat (-e).toNat (by omega)
    have hzero : (m * 2 ^ e.toNat == 0) = false := by
      simpa using hm
    have hterms : m * 2 ^ e.toNat * 2 ^ (-e).toNat = m * (2 ^ (-e).toNat * 2 ^ e.toNat) := by ring
    have hpos : 0 < 2 ^ (-e).toNat * 2 ^ e.toNat :=
      Nat.mul_pos (Nat.two_pow_pos _) (Nat.two_pow_pos _)
    have hfinite := h.finite
    rw [ofScaled_eq]
    simp only [Binary.magnitudeOfRatio, hzero, hexp, scaled_eq, hterms, roundDiv_mul_self m hpos,
      Bool.false_eq_true, if_false]
    rw [Format.magnitude] at hfinite
    rw [Nat.min_eq_right hfinite.le, Format.magnitude]

/-! ### Bits -/

namespace Binary

theorem bits_withSign (s : Bool) {mag : Nat} (h : mag < f.signBit) :
    (withSign f s mag).bits.val = if s then f.signBit + mag else mag := by
  have hlt : (if s then f.signBit + mag else mag) < f.patterns := by
    rw [Format.patterns]
    split <;> omega
  exact Nat.mod_eq_of_lt hlt

theorem negative_withSign (s : Bool) {mag : Nat} (h : mag < f.signBit) :
    (withSign f s mag).negative = s := by
  rw [negative, bits_withSign s h]
  cases s with
  | false => simpa using h
  | true => simp

theorem rest_withSign (s : Bool) {mag : Nat} (h : mag < f.signBit) :
    (withSign f s mag).bits.val % f.signBit = mag := by
  rw [bits_withSign s h]
  cases s <;> simp [Nat.mod_eq_of_lt h]

/-- A number is its sign and its magnitude. -/
theorem eq_withSign (x : Binary f) : x = withSign f x.negative (x.bits.val % f.signBit) := by
  obtain ⟨⟨bits, hbits⟩⟩ := x
  have hpos := f.signBit_pos
  rw [Format.patterns] at hbits
  have hval : (if f.signBit ≤ bits then f.signBit + bits % f.signBit else bits % f.signBit) =
      bits := by
    split
    · next h =>
      rw [Nat.mod_eq_sub_mod h, Nat.mod_eq_of_lt (by omega)]
      omega
    · next h => exact Nat.mod_eq_of_lt (by omega)
  simp only [withSign, ofBits, negative, decide_eq_true_eq, hval]
  congr 2
  exact (Nat.mod_eq_of_lt (by rw [Format.patterns]; omega)).symm

/-- The bits of a number that the format holds decode to what it is. -/
theorem decode_withSign (s : Bool) (h : f.Holds m e) :
    (withSign f s (f.magnitude m e)).decode = .finite s m e := by
  have hfr := f.fractions_pos
  have hmag := h.finite.trans f.infinityBits_lt_signBit
  have hmin := h.minExponent_le
  have hlt := h.lt
  have hfield : f.magnitude m e / f.fractions < f.topField :=
    (Nat.div_lt_iff_lt_mul hfr).mpr h.finite
  simp only [decode, rest_withSign s hmag, negative_withSign s hmag, beq_iff_eq, hfield.ne,
    if_false]
  rw [Format.magnitude] at hfield ⊢
  by_cases hnormal : f.fractions ≤ m
  · -- the leading bit of the significand is counted in the field
    have hsplit : (e - f.minExponent).toNat * f.fractions + m =
        m - f.fractions + f.fractions * ((e - f.minExponent).toNat + 1) := by
      rw [Nat.mul_add, Nat.mul_comm f.fractions]
      omega
    rw [hsplit, Nat.add_mul_div_left _ _ hfr, Nat.add_mul_mod_self_left,
      Nat.div_eq_of_lt (by omega), Nat.mod_eq_of_lt (by omega), if_neg (by omega)]
    congr 1 <;> omega
  · have he := h.normal_or.resolve_left hnormal
    have hsplit : (e - f.minExponent).toNat * f.fractions + m = m := by
      rw [he]
      simp
    rw [hsplit, Nat.div_eq_of_lt (by omega), Nat.mod_eq_of_lt (by omega), if_pos rfl, he]

/-- The exponent field of a number fits in its bits. -/
theorem field_lt (x : Binary f) :
    x.bits.val % f.signBit / f.fractions < 2 ^ f.exponentBits := by
  refine (Nat.div_lt_iff_lt_mul f.fractions_pos).mpr ((Nat.mod_lt _ f.signBit_pos).trans_eq ?_)
  rw [Format.signBit, Nat.shiftLeft_eq, Nat.mul_comm]

/-- What a finite number decodes to is held by its format and gives its bits. -/
theorem holds_of_decode {x : Binary f} (h : x.decode = .finite s m e) :
    f.Holds m e ∧ x = withSign f s (f.magnitude m e) := by
  have hfr := f.fractions_pos
  have hdivmod := Nat.div_add_mod (x.bits.val % f.signBit) f.fractions
  have hmod := Nat.mod_lt (x.bits.val % f.signBit) hfr
  have hfieldlt := field_lt x
  have hx := eq_withSign x
  simp only [decode, beq_iff_eq] at h
  generalize hrest : x.bits.val % f.signBit = rest at h hdivmod hmod hfieldlt hx
  generalize hfield : rest / f.fractions = field at h hdivmod hfieldlt
  generalize hfraction : rest % f.fractions = fraction at h hdivmod hmod
  split at h
  · split at h <;> cases h
  · next hne =>
    have htop : field < f.topField := by
      have : f.topField = 2 ^ f.exponentBits - 1 := by
        rw [Format.topField, Nat.shiftLeft_eq, Nat.one_mul]
      omega
    have hinf : rest < f.infinityBits := by
      rw [Format.infinityBits]
      exact (Nat.div_lt_iff_lt_mul hfr).mp (hfield ▸ htop)
    split at h
    · next hzero =>
      -- without an exponent the fraction is the significand
      cases h
      have hmag : f.magnitude m f.minExponent = rest := by
        rw [Format.magnitude, hzero] at *
        simpa using hdivmod
      exact ⟨⟨by omega, le_rfl, Or.inr rfl, hmag ▸ hinf⟩, hmag ▸ hx⟩
    · next hnonzero =>
      -- else a leading bit stands before the fraction
      cases h
      have hmag : f.magnitude (fraction + f.fractions) (f.minExponent + (field - 1 : Nat)) =
          rest := by
        obtain ⟨k, rfl⟩ : ∃ k, field = k + 1 := ⟨field - 1, by omega⟩
        rw [Format.magnitude, show (f.minExponent + ((k + 1 - 1 : Nat) : Int) -
          f.minExponent).toNat = k by omega, ← hdivmod]
        ring
      exact ⟨⟨by omega, by omega, Or.inl (by omega), hmag ▸ hinf⟩, hmag ▸ hx⟩

end Binary

end TypedSheets.Number

/-! ## Widening -/

namespace TypedSheets.Number

namespace Binary

variable {f : Format}

/-- A NaN has no payload. -/
def Quiet (x : Binary f) : Prop := ∀ s, x.decode = .nan s → x = nan f s

/-! ### Where quiet numbers come from -/

theorem sign_of_decode_nan {x : Binary f} {s : Bool} (h : x.decode = .nan s) : x.negative = s := by
  simp only [decode] at h
  split at h
  · split at h <;> cases h
    rfl
  · split at h <;> cases h

theorem nan_quiet (s : Bool) : (nan f s).Quiet := by
  intro s' h
  have hfr := f.fractions_pos
  have hlt : f.infinityBits + f.fractions / 2 < f.signBit := by
    have htop : f.topField + 1 = 2 ^ f.exponentBits := by
      have hpos := Nat.two_pow_pos f.exponentBits
      rw [Format.topField, Nat.shiftLeft_eq]
      omega
    have hsign : f.signBit = f.infinityBits + f.fractions := by
      rw [Format.signBit, Format.infinityBits, Nat.shiftLeft_eq, ← htop]
      ring
    omega
  rw [← sign_of_decode_nan h, nan, negative_withSign s hlt]
  rfl

/-- A magnitude up to infinity is that of a number. -/
theorem withSign_quiet (s : Bool) {mag : Nat} (h : mag ≤ f.infinityBits) :
    (withSign f s mag).Quiet := by
  intro s' hnan
  have hlt := h.trans_lt f.infinityBits_lt_signBit
  have hfr := f.fractions_pos
  simp only [decode, rest_withSign s hlt, negative_withSign s hlt, beq_iff_eq] at hnan
  split at hnan
  · next hfield =>
    -- with the field of infinity no fraction is left
    have hdivmod := Nat.div_add_mod mag f.fractions
    rw [hfield, Nat.mul_comm] at hdivmod
    rw [Format.infinityBits] at h
    rw [if_pos (by omega)] at hnan
    cases hnan
  · split at hnan <;> cases hnan

theorem ofRatio_quiet (s : Bool) (num den : Nat) : (ofRatio f s num den).Quiet := by
  refine withSign_quiet s ?_
  rw [magnitudeOfRatio]
  split
  · exact Nat.zero_le _
  · exact Nat.min_le_left _ _

theorem zero_quiet : (zero f).Quiet := withSign_quiet false (Nat.zero_le _)

theorem infinity_quiet (s : Bool) : (infinity f s).Quiet := withSign_quiet s le_rfl

theorem ofInt_quiet (i : Int) : (ofInt f i).Quiet := ofRatio_quiet _ _ _

/-- A converted number is quiet. -/
theorem convert_quiet {g : Format} (x : Binary f) : (convert g x).Quiet := by
  rw [convert]
  split
  · exact nan_quiet _
  · exact infinity_quiet _
  · exact ofRatio_quiet _ _ _

theorem ofDecimal_quiet (s : Bool) (digits : Nat) (exponent : Int) :
    (ofDecimal f s digits exponent).Quiet := by
  rw [ofDecimal]
  split
  · exact withSign_quiet s (Nat.zero_le _)
  · split
    · exact infinity_quiet s
    · split
      · exact withSign_quiet s (Nat.zero_le _)
      · exact ofRatio_quiet _ _ _

theorem namedMagnitude?_quiet {s : List Char} {negative : Bool} {x : Binary f}
    (h : namedMagnitude? s negative = some x) : x.Quiet := by
  rw [namedMagnitude?] at h
  split at h
  · cases h
    exact infinity_quiet _
  · split at h <;> cases h
    exact nan_quiet _

theorem parseMagnitude?_quiet {s : List Char} {negative : Bool} {x : Binary f}
    (h : parseMagnitude? f negative s = some x) : x.Quiet := by
  simp only [parseMagnitude?] at h
  split at h <;> split at h
  · cases h
  · obtain ⟨e, -, rfl⟩ := Option.map_eq_some_iff.mp h
    exact ofDecimal_quiet _ _ _
  · cases h
  · obtain ⟨e, -, rfl⟩ := Option.map_eq_some_iff.mp h
    exact ofDecimal_quiet _ _ _

/-- A number read from a text is quiet. -/
theorem parse?_quiet {s : List Char} {x : Binary f} (h : parse? f s = some x) : x.Quiet := by
  simp only [parse?] at h
  split at h
  · next hnamed =>
    cases h
    exact namedMagnitude?_quiet hnamed
  · exact parseMagnitude?_quiet h

/-! ### From 32 bits to 64 and back -/

/-- A finite number of 32 bits, in the form that 64 bits hold. -/
theorem exists_double_holds {m : Nat} {e : Int} (hm : m ≠ 0) (h : Format.single.Holds m e) :
    ∃ k : Nat, Format.double.Holds (m * 2 ^ k) (e - k) := by
  have hlt : m < 2 ^ 24 := h.lt
  have hmin : (-149 : Int) ≤ e := h.minExponent_le
  have hfinite : (e + 149).toNat * 2 ^ 23 + m < 255 * 2 ^ 23 := h.finite
  have hmin' : Format.double.minExponent = -1074 := by decide
  have hleast : Format.double.minExponent ≤ e - ((52 - m.log2 : Nat) : Int) := by omega
  have hfield : (e - ((52 - m.log2 : Nat) : Int) - Format.double.minExponent).toNat ≤ 2000 := by
    omega
  have hself : 2 ^ m.log2 ≤ m := Nat.log2_self_le hm
  have hlog : m.log2 < 24 := (Nat.log2_lt hm).mpr hlt
  have hnext : m < 2 ^ (m.log2 + 1) := Nat.lt_log2_self
  have hexp : 2 ^ m.log2 * 2 ^ (52 - m.log2) = 2 ^ 52 := by
    rw [← Nat.pow_add]
    congr 1
    omega
  -- scaled so that the leading bit is the first of the wider significand
  have hlow : 2 ^ 52 ≤ m * 2 ^ (52 - m.log2) := hexp ▸ Nat.mul_le_mul_right _ hself
  have hhigh : m * 2 ^ (52 - m.log2) < 2 * 2 ^ 52 := by
    calc m * 2 ^ (52 - m.log2)
        < 2 ^ (m.log2 + 1) * 2 ^ (52 - m.log2) :=
          Nat.mul_lt_mul_of_pos_right hnext (Nat.two_pow_pos _)
      _ = 2 * (2 ^ m.log2 * 2 ^ (52 - m.log2)) := by ring
      _ = 2 * 2 ^ 52 := by rw [hexp]
  refine ⟨52 - m.log2, ⟨hhigh, hleast, Or.inl hlow, ?_⟩⟩
  have hbits : Format.double.infinityBits = 2047 * 2 ^ 52 := by decide
  have hfractions : Format.double.fractions = 2 ^ 52 := by decide
  rw [Format.magnitude, hbits, hfractions]
  calc _ ≤ 2000 * 2 ^ 52 + m * 2 ^ (52 - m.log2) :=
        Nat.add_le_add_right (Nat.mul_le_mul_right _ hfield) _
    _ < 2000 * 2 ^ 52 + 2 * 2 ^ 52 := Nat.add_lt_add_left hhigh _
    _ ≤ 2047 * 2 ^ 52 := by decide

theorem decode_infinity_double (s : Bool) : (infinity .double s).decode = .infinite s := by
  cases s <;> decide

theorem decode_nan_double (s : Bool) : (nan .double s).decode = .nan s := by
  cases s <;> decide

theorem double_holds_zero : Format.double.Holds 0 Format.double.minExponent :=
  ⟨by decide, le_rfl, Or.inr rfl, by decide⟩

theorem eq_infinity_of_decode {x : Binary f} {s : Bool} (h : x.decode = .infinite s) :
    x = infinity f s := by
  have hx := eq_withSign x
  have hdivmod := Nat.div_add_mod (x.bits.val % f.signBit) f.fractions
  simp only [decode, beq_iff_eq] at h
  split at h
  · next hfield =>
    split at h
    · next hfraction =>
      cases h
      have hmag : x.bits.val % f.signBit = f.infinityBits := by
        rw [Format.infinityBits, ← hdivmod, hfield, hfraction]
        ring
      rwa [hmag] at hx
    · cases h
  · split at h <;> cases h

/-- A finite number of 32 bits survives widening. -/
theorem convert_single_double_finite {x : Single} {s : Bool} {m : Nat} {e : Int}
    (h : x.decode = .finite s m e) : convert .single (convert .double x) = x := by
  obtain ⟨hholds, hx⟩ := holds_of_decode h
  have hback : ofScaled .single s m e = x := (ofScaled_of_holds s hholds).trans hx.symm
  have hwide : convert .double x = ofScaled .double s m e := by rw [convert, h]
  -- a zero has no leading bit to shift up, only a sign
  by_cases hm : m = 0
  · have hzero : ofScaled .double s m e =
        withSign .double s (Format.double.magnitude 0 Format.double.minExponent) := by
      rw [hm, ofScaled_zero, Format.magnitude]
      simp
    rw [hwide, hzero, convert, decode_withSign s double_holds_zero]
    rw [hm, ofScaled_zero] at hback
    exact (ofScaled_zero _ _ _).trans hback
  · obtain ⟨k, hk⟩ := exists_double_holds hm hholds
    -- the double holds the same number with its significand scaled by `2 ^ k`
    calc convert .single (convert .double x)
        = convert .single (withSign .double s (Format.double.magnitude (m * 2 ^ k) (e - k))) := by
          rw [hwide, ← ofScaled_scale .double s m e k, ofScaled_of_holds s hk]
      _ = ofScaled .single s (m * 2 ^ k) (e - k) := by rw [convert, decode_withSign s hk]
      _ = x := by rw [ofScaled_scale, hback]

/-- A quiet number of 32 bits survives widening. -/
theorem convert_single_double {x : Single} (h : x.Quiet) :
    convert .single (convert .double x) = x := by
  cases hd : x.decode with
  | nan s =>
    have hwide : convert .double x = nan .double s := by rw [convert, hd]
    rw [hwide, convert, decode_nan_double]
    exact (h s hd).symm
  | infinite s =>
    have hwide : convert .double x = infinity .double s := by rw [convert, hd]
    rw [hwide, convert, decode_infinity_double]
    exact (eq_infinity_of_decode hd).symm
  | finite s m e => exact convert_single_double_finite hd

end Binary

end TypedSheets.Number
