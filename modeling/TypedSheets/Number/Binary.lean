/-!
# Binary floating point numbers

A number of a binary interchange format is kept as its bits. Arithmetic decodes the bits into a
significand and an exponent, works on exact integers, and rounds once.

* `Number.Format` — a format: significand and exponent widths; `double` and `single`
* `Number.Binary` — a number of a format
* `Number.Binary.decode` — sign, significand and exponent
* `Number.Binary.ofRatio` — the number nearest to a quotient, ties to even
* `Number.Binary.wholePart?` — the integer a number is, if it is one
-/

namespace TypedSheets.Number

/-- A binary interchange format. -/
structure Format where
  /-- Bits of the significand, the leading one that is not stored included. -/
  precision : Nat
  /-- Bits of the exponent field. -/
  exponentBits : Nat
  deriving DecidableEq

namespace Format

/-- The format of 64 bits. -/
def double : Format := ⟨53, 11⟩

/-- The format of 32 bits. -/
def single : Format := ⟨24, 8⟩

/-- The number of values of the stored part of the significand. -/
def fractions (f : Format) : Nat := 1 <<< (f.precision - 1)

theorem fractions_pos (f : Format) : 0 < f.fractions := by
  rw [fractions, Nat.shiftLeft_eq, Nat.one_mul]
  exact Nat.two_pow_pos _

/-- The exponent field of infinities and NaNs. -/
def topField (f : Format) : Nat := 1 <<< f.exponentBits - 1

/-- The exponent of the last place of the smallest numbers. -/
def minExponent (f : Format) : Int :=
  1 - ((1 <<< (f.exponentBits - 1) - 1 : Nat) : Int) - ((f.precision - 1 : Nat) : Int)

/-- The bits of infinity, which lie above those of every finite number of positive sign. -/
def infinityBits (f : Format) : Nat := f.topField * f.fractions

/-- The weight of the sign bit. -/
def signBit (f : Format) : Nat := f.fractions <<< f.exponentBits

theorem signBit_pos (f : Format) : 0 < f.signBit := by
  rw [signBit, Nat.shiftLeft_eq]
  exact Nat.mul_pos f.fractions_pos (Nat.two_pow_pos _)

/-- The number of bit patterns. -/
def patterns (f : Format) : Nat := 2 * f.signBit

theorem patterns_pos (f : Format) : 0 < f.patterns := Nat.mul_pos (by decide) f.signBit_pos

/-- The number of bytes of a pattern. -/
def bytes (f : Format) : Nat := (f.precision + f.exponentBits) / 8

end Format

/-- A number of a binary format, as its bits. -/
structure Binary (f : Format) where
  bits : Fin (f.patterns)
  deriving DecidableEq

/-- A number of 64 bits. -/
abbrev Double := Binary .double

/-- A number of 32 bits. -/
abbrev Single := Binary .single

/-- What a number is. A finite one is `± significand · 2 ^ exponent`. -/
inductive Decoded where
  | nan (negative : Bool)
  | infinite (negative : Bool)
  | finite (negative : Bool) (significand : Nat) (exponent : Int)
  deriving DecidableEq

/-- The quotient rounded to an integer, a half to the even one. -/
def roundDiv (num den : Nat) : Nat :=
  let q := num / den
  let twice := 2 * (num % den)
  if twice < den then q
  else if den < twice then q + 1
  else if q % 2 == 0 then q else q + 1

/-- `num / den` scaled down by `2 ^ e`, as a quotient of integers. -/
def scaled (num den : Nat) (e : Int) : Nat × Nat :=
  if 0 ≤ e then (num, den <<< e.toNat) else (num <<< (-e).toNat, den)

namespace Binary

variable {f : Format}

/-- The number of those bits; bits beyond the format are dropped. -/
def ofBits (f : Format) (bits : Nat) : Binary f :=
  ⟨⟨bits % f.patterns, Nat.mod_lt _ f.patterns_pos⟩⟩

/-- Whether the sign bit is set. -/
def negative (x : Binary f) : Bool := f.signBit ≤ x.bits.val

/-- Sign, significand and exponent. -/
def decode (x : Binary f) : Decoded :=
  let rest := x.bits.val % f.signBit
  let field := rest / f.fractions
  let fraction := rest % f.fractions
  if field == f.topField then
    if fraction == 0 then .infinite x.negative else .nan x.negative
  else if field == 0 then .finite x.negative fraction f.minExponent
  else .finite x.negative (fraction + f.fractions) (f.minExponent + (field - 1 : Nat))

/-- The bits of a magnitude under a sign. -/
def withSign (f : Format) (negative : Bool) (magnitude : Nat) : Binary f :=
  ofBits f (if negative then f.signBit + magnitude else magnitude)

/-- Infinity. -/
def infinity (f : Format) (negative : Bool) : Binary f := withSign f negative f.infinityBits

/-- The quiet NaN without payload. -/
def nan (f : Format) (negative : Bool) : Binary f :=
  withSign f negative (f.infinityBits + f.fractions / 2)

/-- Zero. -/
def zero (f : Format) : Binary f := ofBits f 0

/-- The exponent of the last place at which a positive quotient is rounded. -/
def roundingExponent (f : Format) (num den : Nat) : Int :=
  let guess : Int := (Nat.log2 num : Int) - (Nat.log2 den : Int) - ((f.precision - 1 : Nat) : Int)
  let (n, d) := scaled num den guess
  let e := if n / d < f.fractions then guess - 1 else guess
  max f.minExponent e

/-- The bits of the magnitude nearest to `num / den`, ties to even; from half a unit beyond the
greatest finite number on it is infinity. -/
def magnitudeOfRatio (f : Format) (num den : Nat) : Nat :=
  if num == 0 then 0
  else
    let e := roundingExponent f num den
    let (n, d) := scaled num den e
    min f.infinityBits ((e - f.minExponent).toNat * f.fractions + roundDiv n d)

/-- The number nearest to `± num / den`. -/
def ofRatio (f : Format) (negative : Bool) (num den : Nat) : Binary f :=
  withSign f negative (magnitudeOfRatio f num den)

/-- The number nearest to `± significand · 2 ^ exponent`. -/
def ofScaled (f : Format) (negative : Bool) (significand : Nat) (exponent : Int) : Binary f :=
  let (n, d) := scaled significand 1 (-exponent)
  ofRatio f negative n d

/-- The number nearest to an integer. -/
def ofInt (f : Format) (i : Int) : Binary f := ofRatio f (i < 0) i.natAbs 1

/-- The number of another format nearest to this one. -/
def convert {f : Format} (g : Format) (x : Binary f) : Binary g :=
  match x.decode with
  | .nan s => nan g s
  | .infinite s => infinity g s
  | .finite s m e => ofScaled g s m e

/-- The number with the other sign. -/
def negate (x : Binary f) : Binary f := ofBits f (x.bits.val + f.signBit)

/-- Whether the number is no number. -/
def isNaN (x : Binary f) : Bool :=
  match x.decode with
  | .nan _ => true
  | _ => false

/-- The integer that a finite number without fraction is. -/
def wholePart? (x : Binary f) : Option Int :=
  match x.decode with
  | .finite s m e =>
    let (n, d) := scaled m 1 (-e)
    if n % d == 0 then some (if s then -((n / d : Nat) : Int) else ((n / d : Nat) : Int)) else none
  | _ => none

/-- The product, rounded once. -/
def mul (x y : Binary f) : Binary f :=
  match x.decode, y.decode with
  | .finite s m e, .finite t n d => ofScaled f (s != t) (m * n) (e + d)
  | .nan s, _ => nan f s
  | _, .nan s => nan f s
  | .infinite s, .finite t n _ => if n == 0 then nan f true else infinity f (s != t)
  | .finite s m _, .infinite t => if m == 0 then nan f true else infinity f (s != t)
  | .infinite s, .infinite t => infinity f (s != t)

/-- The quotient of finite numbers, rounded once; a divisor of zero gives infinity. -/
def div (x y : Binary f) : Binary f :=
  match x.decode, y.decode with
  | .finite s m e, .finite t n d =>
    if n == 0 then infinity f (s != t)
    else
      let (a, b) := scaled m n (d - e)
      ofRatio f (s != t) a b
  | _, _ => x

/-- Whether the number is an infinity. -/
def isInfinite (x : Binary f) : Bool :=
  match x.decode with
  | .infinite _ => true
  | _ => false

/-- Whether the number is zero of either sign. -/
def isZero (x : Binary f) : Bool :=
  match x.decode with
  | .finite _ m _ => m == 0
  | _ => false

end Binary

end TypedSheets.Number
