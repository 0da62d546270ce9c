import TypedSheets.Proofs.Number.Canonical
import TypedSheets.Proofs.Number.Rounding

/-!
# The shortest digits of whole numbers

The search for the shortest digits of a floating point number cuts the number off after one digit,
after two, and so on, until the cut or the decimal above it reads back. For a whole number the last
of these cuts is the number itself, so the digits that are found have no places after the point. Up
to seventeen digits this cut is within reach, and what is found before it reads back. From nineteen
digits on it is out of reach, and what is found is a multiple of ten.

## Main definitions

* `Whole` — a significand and an exponent that make a whole number
* `Shortest.whole` — the whole number that digits denote
* `Binary.Exact` — the shortest digits denote the number itself

## Main results

* `Rounding.search_spec` — where the search stops, and with what
* `Rounding.search_of_whole` — what the search finds for a whole number
* `Binary.text_of_whole` — the text of a whole number has no point
* `Binary.exact_of_lt` — whole numbers of 64 bits below `2 ^ 54` are spelled exactly
-/

namespace TypedSheets.Number

/-! ### Scales -/

/-- The number `m · 2 ^ e` is the whole number `n`. -/
def Whole (m : Nat) (e : Int) (n : Nat) : Prop := m * 2 ^ e.toNat = n * 2 ^ (-e).toNat

namespace Whole

variable {m n : Nat} {e : Int}

/-- A finer scale does not change the number. -/
theorem scale (h : Whole m e n) (k : Nat) : Whole (m * 2 ^ k) (e - k) n := by
  obtain ⟨j, hnum, hden⟩ : ∃ j : Nat, k + (e - k).toNat = e.toNat + j ∧
      (-(e - k)).toNat = (-e).toNat + j := by
    refine ⟨(-(e - k)).toNat - (-e).toNat, ?_, ?_⟩ <;> omega
  calc m * 2 ^ k * 2 ^ (e - k).toNat
      = m * 2 ^ e.toNat * 2 ^ j := by rw [Nat.mul_assoc, ← Nat.pow_add, hnum, Nat.pow_add,
          Nat.mul_assoc]
    _ = n * 2 ^ (-e).toNat * 2 ^ j := by rw [h]
    _ = n * 2 ^ (-(e - k)).toNat := by rw [hden, Nat.pow_add, Nat.mul_assoc]

theorem ne_zero (h : Whole m e n) (hm : m ≠ 0) : n ≠ 0 := by
  rintro rfl
  have hleft : m * 2 ^ e.toNat ≠ 0 := Nat.mul_ne_zero hm (Nat.two_pow_pos _).ne'
  exact hleft (h.trans (Nat.zero_mul _))

end Whole

theorem compareScales_eq (a : Nat) (k : Int) (b : Nat) (e : Int) :
    compareScales a k b e =
      compare (a * 10 ^ k.toNat * 2 ^ (-e).toNat) (b * 10 ^ (-k).toNat * 2 ^ e.toNat) := by
  simp only [compareScales, Nat.shiftLeft_eq, Nat.pow_eq]

/-- The whole number that digits denote if none of them stands after the point. -/
def Shortest.whole (d : Shortest) : Nat := d.digits * 10 ^ d.exponent.toNat

/-- Digits without places after the point are compared by the whole number they denote. -/
theorem compareScales_whole {d : Shortest} (hd : 0 ≤ d.exponent) (b : Nat) (e : Int) :
    compareScales d.digits d.exponent b e =
      compare (d.whole * 2 ^ (-e).toNat) (b * 2 ^ e.toNat) := by
  rw [compareScales_eq, Shortest.whole, show (-d.exponent).toNat = 0 by omega, Nat.pow_zero,
    Nat.mul_one]

/-- The digits of a whole number denote it exactly if they denote the same whole number. -/
theorem compareScales_eq_iff_of_whole {d : Shortest} (hd : 0 ≤ d.exponent) {m n : Nat} {e : Int}
    (h : Whole m e n) : compareScales d.digits d.exponent m e = .eq ↔ d.whole = n := by
  rw [compareScales_whole hd, h, Nat.compare_eq_eq, Nat.mul_left_inj (Nat.two_pow_pos _).ne']

/-- A positive whole number has as many places in front of the point as it has digits. -/
theorem decimalMagnitude_of_whole {b n : Nat} {e : Int} (h : Whole b e n) (hn : n ≠ 0) :
    decimalMagnitude b e = ((natChars n).length : Int) - 1 := by
  rw [decimalMagnitude]
  split
  · next he =>
    have hb : b <<< e.toNat = n := by
      rw [Nat.shiftLeft_eq, h, show (-e).toNat = 0 by omega, Nat.pow_zero, Nat.mul_one]
    rw [hb]
  · next he =>
    have hb : b = n * 2 ^ (-e).toNat := by
      rw [← h, show e.toNat = 0 by omega, Nat.pow_zero, Nat.mul_one]
    have hpow := Nat.two_pow_pos (-e).toNat
    have hle : 2 ^ (-e).toNat ≤ b := hb ▸ Nat.le_mul_of_pos_left _ (Nat.pos_of_ne_zero hn)
    simp only [Nat.shiftLeft_eq, Nat.one_mul, hle, if_true]
    rw [hb, Nat.mul_div_cancel _ hpow]

/-! ### The search -/

namespace Rounding

variable {r : Rounding} {magnitude : Int}

/-- The search stops at the first count of digits at which a neighbour reads back, or gives the cut
after the last count. -/
theorem search_spec (r : Rounding) (magnitude : Int) (fuel count : Nat) :
    ∃ c, count ≤ c ∧ c ≤ count + fuel ∧
      (∀ c', count ≤ c' → c' < c → r.neighbour? magnitude c' = none) ∧
      (r.neighbour? magnitude c = some (r.search magnitude fuel count) ∨
        c = count + fuel ∧ r.search magnitude fuel count = r.cut magnitude c) := by
  -- `c` is the count the search stops at: a neighbour found, or the fuel used up
  induction fuel generalizing count with
  | zero => exact ⟨count, le_rfl, le_rfl, fun c' h h' => by omega, Or.inr ⟨rfl, rfl⟩⟩
  | succ fuel ih =>
    cases hn : r.neighbour? magnitude count with
    | some d =>
      refine ⟨count, le_rfl, by omega, fun c' h h' => by omega, Or.inl ?_⟩
      rw [search, hn]
    | none =>
      obtain ⟨c, hle, hfuel, hnone, hfound⟩ := ih (count + 1)
      have hsearch : r.search magnitude (fuel + 1) count = r.search magnitude fuel (count + 1) := by
        rw [search, hn]
      refine ⟨c, by omega, by omega, fun c' h h' => ?_, ?_⟩
      · rcases Nat.eq_or_lt_of_le h with rfl | hlt
        · exact hn
        · exact hnone c' hlt h'
      · rw [hsearch, show count + (fuel + 1) = count + 1 + fuel by omega]
        exact hfound

/-- A neighbour is the cut or the decimal above it, and it reads back. -/
theorem neighbour?_cases {count : Nat} {d : Shortest} (h : r.neighbour? magnitude count = some d) :
    (d = r.cut magnitude count ∨
      d = ⟨(r.cut magnitude count).digits + 1, (r.cut magnitude count).exponent⟩) ∧
      r.admits d = true := by
  simp only [neighbour?] at h
  split at h
  · next hdown hup =>
    split at h <;> cases h
    · exact ⟨Or.inl rfl, hdown⟩
    · exact ⟨Or.inr rfl, hup⟩
  · next hdown _ =>
    cases h
    exact ⟨Or.inl rfl, hdown⟩
  · next _ hup =>
    cases h
    exact ⟨Or.inr rfl, hup⟩
  · cases h

/-- What reads back lies between the bounds. -/
theorem bounds_of_admits {d : Shortest} (h : r.admits d = true) (hd : 0 ≤ d.exponent) :
    r.lower * 2 ^ r.exponent.toNat ≤ d.whole * 2 ^ (-r.exponent).toNat ∧
      d.whole * 2 ^ (-r.exponent).toNat ≤ r.upper * 2 ^ r.exponent.toNat := by
  rw [admits, compareScales_whole hd, compareScales_whole hd] at h
  split at h
  · next hlower hupper =>
    exact ⟨(Nat.compare_eq_gt.mp hlower).le, (Nat.compare_eq_lt.mp hupper).le⟩
  · next hlower hupper =>
    exact ⟨(Nat.compare_eq_eq.mp hlower).ge, (Nat.compare_eq_lt.mp hupper).le⟩
  · next hlower hupper =>
    exact ⟨(Nat.compare_eq_gt.mp hlower).le, (Nat.compare_eq_eq.mp hupper).le⟩
  · cases h

variable {n : Nat}

/-- A whole number is cut off after some digits, or written with zeros after the point. -/
theorem cut_of_whole (h : Whole r.value r.exponent n) (magnitude : Int) (count : Nat) :
    r.cut magnitude count =
      ⟨n * 10 ^ (-(magnitude - count + 1)).toNat / 10 ^ (magnitude - count + 1).toNat,
        magnitude - count + 1⟩ := by
  have hnum : r.value * 10 ^ (-(magnitude - count + 1)).toNat * 2 ^ r.exponent.toNat =
      n * 10 ^ (-(magnitude - count + 1)).toNat * 2 ^ (-r.exponent).toNat := by
    rw [Nat.mul_right_comm, h, Nat.mul_right_comm]
  simp only [cut, Nat.shiftLeft_eq, Nat.pow_eq, hnum, Nat.mul_div_mul_right _ _ (Nat.two_pow_pos _)]

/-- At the full number of its digits a whole number is its own neighbour. -/
theorem neighbour?_of_whole (h : Whole r.value r.exponent n) (hlower : r.lower < r.value)
    (hupper : r.value < r.upper) {count : Nat} (hcount : magnitude - count + 1 = 0) :
    r.neighbour? magnitude count = some ⟨n, 0⟩ := by
  have hcut : r.cut magnitude count = ⟨n, 0⟩ := by
    rw [cut_of_whole h, hcount]
    simp
  have hcompare : ∀ b, compareScales n 0 b r.exponent = compare r.value b := by
    intro b
    have hpos := Nat.two_pow_pos r.exponent.toNat
    have hwhole : Shortest.whole ⟨n, 0⟩ = n := Nat.mul_one n
    rw [compareScales_whole (d := ⟨n, 0⟩) le_rfl, hwhole, ← h]
    rcases lt_trichotomy r.value b with hlt | rfl | hgt
    · rw [Nat.compare_eq_lt.mpr hlt,
        Nat.compare_eq_lt.mpr (Nat.mul_lt_mul_of_pos_right hlt hpos)]
    · rw [Nat.compare_eq_eq.mpr rfl, Nat.compare_eq_eq.mpr rfl]
    · rw [Nat.compare_eq_gt.mpr hgt,
        Nat.compare_eq_gt.mpr (Nat.mul_lt_mul_of_pos_right hgt hpos)]
  have hdown : r.admits ⟨n, 0⟩ = true := by
    simp only [admits, hcompare, Nat.compare_eq_gt.mpr hlower, Nat.compare_eq_lt.mpr hupper]
  -- the decimal above may read back as well, but it is not as near
  have hnearer : compareScales (n + (n + 1)) 0 (2 * r.value) r.exponent = .gt := by
    have hpos := Nat.two_pow_pos (-r.exponent).toNat
    rw [compareScales_whole (d := ⟨n + (n + 1), 0⟩) le_rfl, Nat.compare_eq_gt, Nat.mul_assoc, h,
      ← Nat.mul_assoc]
    refine Nat.mul_lt_mul_of_pos_right ?_ hpos
    change 2 * n < (n + (n + 1)) * 1
    omega
  simp only [neighbour?, hcut, hdown, hnearer]
  cases r.admits ⟨n + 1, 0⟩ <;> rfl

/-- As many digits as a whole number has or fewer are the first of its own digits. -/
theorem cut_of_le (h : Whole r.value r.exponent n) {count : Nat}
    (hle : count ≤ (natChars n).length) :
    r.cut (((natChars n).length : Int) - 1) count =
      ⟨n / 10 ^ ((natChars n).length - count), ((natChars n).length - count : Nat)⟩ := by
  have hexponent : ((natChars n).length : Int) - 1 - count + 1 =
      ((natChars n).length - count : Nat) := by omega
  rw [cut_of_whole h, hexponent, Int.toNat_natCast, Int.toNat_neg_natCast, Nat.pow_zero,
    Nat.mul_one]

/-- The first digits of a positive number are not zero. -/
theorem div_pow_length_ne_zero (hn : n ≠ 0) {count : Nat} (hcount : count ≠ 0) :
    n / 10 ^ ((natChars n).length - count) ≠ 0 := by
  have hpow : 10 ^ ((natChars n).length - count) ≤ n :=
    (Nat.pow_le_pow_right (by decide) (by omega)).trans (pow_length_natChars_le hn)
  exact (Nat.div_pos hpow (Nat.pow_pos (by decide))).ne'

/-- The digits that are found for a positive whole number are at most as many as it has and at most
eighteen, and zeros stand for the others. All of its own digits are the number itself, and fewer
than eighteen digits read back. -/
theorem search_of_whole (h : Whole r.value r.exponent n) (hn : n ≠ 0) (hlower : r.lower < r.value)
    (hupper : r.value < r.upper) {d : Shortest}
    (hd : r.search (((natChars n).length : Int) - 1) 17 1 = d) :
    ∃ count : Nat, count ≤ 18 ∧ count ≤ (natChars n).length ∧
      d.exponent = ((natChars n).length - count : Nat) ∧ d.digits ≠ 0 ∧
      (count = (natChars n).length → d.digits = n) ∧ (count < 18 → r.admits d = true) := by
  obtain ⟨count, hcount, hfuel, hnone, hfound⟩ :=
    r.search_spec (((natChars n).length : Int) - 1) 17 1
  rw [hd] at hfound
  have hpos : 0 < (natChars n).length := List.length_pos_iff.mpr (natChars_ne_nil n)
  have hexact : r.neighbour? (((natChars n).length : Int) - 1) (natChars n).length =
      some ⟨n, 0⟩ :=
    neighbour?_of_whole h hlower hupper (by omega)
  -- the search does not pass the number of digits at which the number is its own neighbour
  have hle : count ≤ (natChars n).length := by
    by_contra hlt
    have hpassed := hnone _ hpos (by omega)
    cases hpassed.symm.trans hexact
  have hdigits := div_pow_length_ne_zero hn (Nat.pos_iff_ne_zero.mp hcount)
  refine ⟨count, by omega, hle, ?_⟩
  rcases hfound with hfound | ⟨hlast, hcut⟩
  · obtain ⟨hneighbour, hadmits⟩ := neighbour?_cases hfound
    rw [cut_of_le h hle] at hneighbour
    refine ⟨?_, ?_, ?_, fun _ => hadmits⟩
    · rcases hneighbour with rfl | rfl <;> rfl
    · rcases hneighbour with rfl | rfl
      · exact hdigits
      · exact Nat.succ_ne_zero _
    · rintro rfl
      exact congrArg Shortest.digits (Option.some.inj (hfound.symm.trans hexact))
  · rw [cut_of_le h hle] at hcut
    subst hcut
    refine ⟨rfl, hdigits, fun hall => ?_, fun hlt => by omega⟩
    change n / 10 ^ ((natChars n).length - count) = n
    rw [hall, Nat.sub_self, Nat.pow_zero, Nat.div_one]

end Rounding

/-! ### Whole numbers -/

variable {f : Format} {m n : Nat} {e : Int}

/-- The bounds of a number lie half a unit in the last place or less from it. -/
theorem Rounding.of_bounds (f : Format) (hm : m ≠ 0) (e : Int) :
    (of f m e).value = m * 2 ^ 2 ∧ (of f m e).exponent = e - (2 : Nat) ∧
      4 * m ≤ (of f m e).lower + 2 ∧ (of f m e).lower < 4 * m ∧ (of f m e).upper = 4 * m + 2 := by
  refine ⟨Nat.mul_comm 4 m, rfl, ?_, ?_, rfl⟩
  · simp only [of]
    split <;> omega
  · simp only [of]
    split <;> omega

/-- The shortest digits of a positive whole number are found by a search that knows how many digits
it has. -/
theorem Shortest.of_whole (f : Format) (hm : m ≠ 0) (h : Whole m e n) :
    ∃ count : Nat, count ≤ 18 ∧ count ≤ (natChars n).length ∧
      (of f m e).exponent = ((natChars n).length - count : Nat) ∧ (of f m e).digits ≠ 0 ∧
      (count = (natChars n).length → (of f m e).digits = n) ∧
      (count < 18 → (Rounding.of f m e).admits (of f m e) = true) := by
  obtain ⟨hvalue, hexponent, -, hlower, hupper⟩ := Rounding.of_bounds f hm e
  have hn : n ≠ 0 := h.ne_zero hm
  have hwhole : Whole (Rounding.of f m e).value (Rounding.of f m e).exponent n := by
    rw [hvalue, hexponent]
    exact h.scale 2
  refine Rounding.search_of_whole hwhole hn (by omega) (by omega) ?_
  rw [of, decimalMagnitude_of_whole hwhole hn]

/-! ### Texts -/

/-- Zeros at the end of the digits make no difference to the number. -/
theorem Shortest.stripped_whole {d : Shortest} (hexponent : 0 ≤ d.exponent) (hdigits : d.digits ≠ 0)
    (fuel : Nat) :
    0 ≤ (d.stripped fuel).exponent ∧ (d.stripped fuel).digits ≠ 0 ∧
      (d.stripped fuel).whole = d.whole := by
  induction fuel generalizing d with
  | zero => exact ⟨hexponent, hdigits, rfl⟩
  | succ fuel ih =>
    rw [stripped]
    split
    · next hzero =>
      simp only [Bool.and_eq_true, bne_iff_ne, beq_iff_eq] at hzero
      have hshort : whole ⟨d.digits / 10, d.exponent + 1⟩ = d.whole := by
        change d.digits / 10 * 10 ^ (d.exponent + 1).toNat = d.digits * 10 ^ d.exponent.toNat
        rw [show (d.exponent + 1).toNat = d.exponent.toNat + 1 by omega, Nat.pow_succ',
          ← Nat.mul_assoc, Nat.div_mul_cancel (Nat.dvd_of_mod_eq_zero hzero.2)]
      obtain ⟨hnext, hnonzero, hwhole⟩ := ih (d := ⟨d.digits / 10, d.exponent + 1⟩)
        (by change 0 ≤ d.exponent + 1; omega) (by change d.digits / 10 ≠ 0; omega)
      exact ⟨hnext, hnonzero, hwhole.trans hshort⟩
    · exact ⟨hexponent, hdigits, rfl⟩

/-- Digits without places after the point are written as the number they denote. -/
theorem Shortest.positional_whole {d : Shortest} (hexponent : 0 ≤ d.exponent)
    (hdigits : d.digits ≠ 0) : d.positional = natChars d.whole := by
  rw [positional, if_pos hexponent, whole, natChars_mul_pow hdigits]

namespace Binary

variable {x : Binary f} {s : Bool}

/-- The text of a whole number is that of the integer which its shortest digits denote. -/
theorem text_of_whole (hx : x.decode = .finite s m e) (hm : m ≠ 0) (h : Whole m e n) :
    x.text = intText (if s then -((Shortest.of f m e).whole : Int)
      else (Shortest.of f m e).whole) := by
  obtain ⟨count, -, -, hexponent, hdigits, -⟩ := Shortest.of_whole f hm h
  have hnonneg : 0 ≤ (Shortest.of f m e).exponent := by omega
  obtain ⟨hstripped, hnonzero, hwhole⟩ := Shortest.stripped_whole hnonneg hdigits 400
  have hpos : (Shortest.of f m e).whole ≠ 0 :=
    Nat.mul_ne_zero hdigits (Nat.pow_pos (by decide)).ne'
  have hzero : (m == 0) = false := by simpa using hm
  rw [← String.toList_inj, toList_intText]
  simp only [text, hx, hzero, Bool.false_eq_true, if_false, String.toList_ofList,
    Shortest.positional_whole hstripped hnonzero, hwhole]
  cases s with
  | false => simp
  | true => simp [Nat.pos_of_ne_zero hpos]

/-- The integer that a number is has the number's sign, and its magnitude is whole. -/
theorem decode_of_wholePart? {i : Int} (h : x.wholePart? = some i) :
    ∃ s m e, x.decode = .finite s m e ∧ Whole m e i.natAbs ∧
      i = if s then -(i.natAbs : Int) else i.natAbs := by
  rw [wholePart?] at h
  split at h
  · next s m e hx =>
    simp only [scaled_eq, neg_neg, Nat.one_mul] at h
    split at h
    · next hmod =>
      have hdvd : 2 ^ (-e).toNat ∣ m * 2 ^ e.toNat :=
        Nat.dvd_of_mod_eq_zero (beq_iff_eq.mp hmod)
      have habs : i.natAbs = m * 2 ^ e.toNat / 2 ^ (-e).toNat := by
        generalize m * 2 ^ e.toNat / 2 ^ (-e).toNat = q at h
        cases s <;> cases h
        · exact Int.natAbs_natCast q
        · exact (Int.natAbs_neg _).trans (Int.natAbs_natCast q)
      refine ⟨s, m, e, hx, ?_, ?_⟩
      · rw [Whole, habs, Nat.div_mul_cancel hdvd]
      · rw [habs]
        exact (Option.some.inj h).symm
    · cases h
  · cases h

/-- The shortest digits of a finite number denote the number itself, and not one nearby. -/
def Exact (x : Binary f) : Prop :=
  match x.decode with
  | .finite _ m e =>
    m = 0 ∨ compareScales (Shortest.of f m e).digits (Shortest.of f m e).exponent m e = .eq
  | _ => False

theorem exact_iff_of_whole (hx : x.decode = .finite s m e) (hm : m ≠ 0) (h : Whole m e n) :
    x.Exact ↔ (Shortest.of f m e).whole = n := by
  obtain ⟨count, -, -, hexponent, -⟩ := Shortest.of_whole f hm h
  rw [Exact, hx]
  simp only [hm, false_or]
  exact compareScales_eq_iff_of_whole (by omega) h

/-- A whole number of nineteen digits or more that is spelled exactly is a multiple of ten. -/
theorem ten_dvd_of_length_lt (f : Format) (hm : m ≠ 0) (h : Whole m e n)
    (hlength : 18 < (natChars n).length) : 10 ∣ (Shortest.of f m e).whole := by
  obtain ⟨count, hcount, -, hexponent, -⟩ := Shortest.of_whole f hm h
  have hpow : (Shortest.of f m e).exponent.toNat ≠ 0 := by omega
  exact Dvd.dvd.mul_left (dvd_pow_self 10 hpow) _

/-- Below `2 ^ 54` the numbers of 64 bits are two apart at most. -/
theorem exponent_le_one {x : Double} (hx : x.decode = .finite s m e) (h : Whole m e n)
    (hn : n < 2 ^ 54) : e ≤ 1 := by
  by_contra he
  rcases (holds_of_decode hx).1.normal_or with hnormal | hleast
  · have hfractions : Format.double.fractions = 2 ^ 52 := by decide
    have hvalue : n = m * 2 ^ e.toNat := by
      rw [h, show (-e).toNat = 0 by omega, Nat.pow_zero, Nat.mul_one]
    have hlarge : 2 ^ 54 ≤ n := by
      calc 2 ^ 54 = 2 ^ 52 * 2 ^ 2 := by decide
        _ ≤ m * 2 ^ 2 := Nat.mul_le_mul_right _ (hfractions ▸ hnormal)
        _ ≤ m * 2 ^ e.toNat :=
          Nat.mul_le_mul_left _ (Nat.pow_le_pow_right (by decide) (by omega))
        _ = n := hvalue.symm
    omega
  · have hmin : Format.double.minExponent = -1074 := by decide
    omega

/-- Where the numbers are two apart at most, an even number within the bounds is the number. -/
theorem eq_of_bounds (hm : m ≠ 0) (h : Whole m e n) (he : e ≤ 1) {w : Nat} (heven : 2 ∣ w)
    (hlow : (Rounding.of f m e).lower * 2 ^ (Rounding.of f m e).exponent.toNat ≤
      w * 2 ^ (-(Rounding.of f m e).exponent).toNat)
    (hhigh : w * 2 ^ (-(Rounding.of f m e).exponent).toNat ≤
      (Rounding.of f m e).upper * 2 ^ (Rounding.of f m e).exponent.toNat) : w = n := by
  obtain ⟨-, hexponent, hlower, -, hupper⟩ := Rounding.of_bounds f hm e
  have hquarter : 4 * m = n * 2 ^ (-(e - (2 : Nat))).toNat := by
    have hscale := h.scale 2
    rw [Whole, show (e - (2 : Nat)).toNat = 0 by omega, Nat.pow_zero, Nat.mul_one] at hscale
    omega
  rw [hexponent, show (e - (2 : Nat)).toNat = 0 by omega, Nat.pow_zero, Nat.mul_one] at hlow hhigh
  rcases Int.lt_or_eq_of_le he with hlt | rfl
  · -- numbers one apart or less: a unit is four quarters or more
    have hpow : 2 ^ 2 ≤ 2 ^ (-(e - (2 : Nat))).toNat :=
      Nat.pow_le_pow_right (by decide) (by omega)
    generalize 2 ^ (-(e - (2 : Nat))).toNat = q at *
    rcases Nat.lt_trichotomy w n with hless | heq | hmore
    · have hstep : (w + 1) * q ≤ n * q := Nat.mul_le_mul_right q hless
      rw [Nat.add_mul, Nat.one_mul] at hstep
      omega
    · exact heq
    · have hstep : (n + 1) * q ≤ w * q := Nat.mul_le_mul_right q hmore
      rw [Nat.add_mul, Nat.one_mul] at hstep
      omega
  · -- numbers two apart: the number is even too
    have htwo : 2 ^ (-((1 : Int) - (2 : Nat))).toNat = 2 := rfl
    rw [htwo] at hquarter hlow hhigh
    omega

/-- The shortest digits of the whole numbers of 64 bits below `2 ^ 54` are exact. -/
theorem exact_of_lt {x : Double} {i : Int} (hx : x.wholePart? = some i)
    (hi : i.natAbs < 2 ^ 54) : x.Exact := by
  obtain ⟨s, m, e, hdecode, hwhole, -⟩ := decode_of_wholePart? hx
  by_cases hm : m = 0
  · rw [Exact, hdecode]
    exact Or.inl hm
  have he := exponent_le_one hdecode hwhole hi
  rw [exact_iff_of_whole hdecode hm hwhole]
  generalize i.natAbs = n at *
  obtain ⟨count, -, hle, hexponent, -, hall, hadmits⟩ := Shortest.of_whole .double hm hwhole
  have hlength : (natChars n).length ≤ 17 :=
    (length_natChars_le_iff (by decide)).mpr (hi.trans (by decide))
  rcases Nat.eq_or_lt_of_le hle with hcount | hlt
  · rw [Shortest.whole, hexponent, hall hcount, hcount, Nat.sub_self]
    exact Nat.mul_one n
  · -- fewer digits than its own denote a multiple of ten
    have heven : 2 ∣ (Shortest.of .double m e).whole := by
      have hpow : (Shortest.of .double m e).exponent.toNat ≠ 0 := by omega
      exact Dvd.dvd.mul_left ((by decide : 2 ∣ 10).trans (dvd_pow_self 10 hpow)) _
    obtain ⟨hlow, hhigh⟩ := Rounding.bounds_of_admits (hadmits (by omega)) (by omega)
    exact eq_of_bounds hm hwhole he heven hlow hhigh

end Binary

end TypedSheets.Number
