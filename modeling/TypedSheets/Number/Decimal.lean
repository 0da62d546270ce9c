import TypedSheets.Number.Binary
import TypedSheets.Number.Digits

/-!
# Decimal text of floating point numbers

* `Number.Shortest` — the fewest decimal digits that read back
* `Number.Binary.text` — those digits written positionally, never with an exponent
* `Number.Binary.parse?` — decimal text with fraction and exponent, rounded once
-/

namespace TypedSheets.Number

/-- A positive decimal number `digits · 10 ^ exponent`. -/
structure Shortest where
  digits : Nat
  exponent : Int
  deriving DecidableEq

/-- The reals that round to a positive finite number lie between these bounds, which are multiples
of a quarter unit in the last place: `lower · 2 ^ (e - 2)` and `upper · 2 ^ (e - 2)`. -/
structure Rounding where
  lower : Nat
  value : Nat
  upper : Nat
  /-- The exponent of a quarter unit. -/
  exponent : Int
  /-- The bounds themselves round to the number: its significand is even. -/
  closed : Bool

/-- The bounds of `significand · 2 ^ exponent`. Below a power of two numbers are twice as dense,
unless they are the smallest ones. -/
def Rounding.of (f : Format) (significand : Nat) (exponent : Int) : Rounding :=
  { lower :=
      if significand == f.fractions && f.minExponent < exponent then 4 * significand - 1
      else 4 * significand - 2
    value := 4 * significand
    upper := 4 * significand + 2
    exponent := exponent - 2
    closed := significand % 2 == 0 }

/-- Compares `a · 10 ^ k` with `b · 2 ^ e`. -/
def compareScales (a : Nat) (k : Int) (b : Nat) (e : Int) : Ordering :=
  let left := (a * Nat.pow 10 k.toNat) <<< (-e).toNat
  let right := (b * Nat.pow 10 (-k).toNat) <<< e.toNat
  compare left right

/-- Whether the decimal number reads back as the number with these bounds. -/
def Rounding.admits (r : Rounding) (d : Shortest) : Bool :=
  match compareScales d.digits d.exponent r.lower r.exponent,
      compareScales d.digits d.exponent r.upper r.exponent with
  | .gt, .lt => true
  | .eq, .lt => r.closed
  | .gt, .eq => r.closed
  | _, _ => false

/-- The largest `n` with `10 ^ n ≤ b · 2 ^ e`, by counting digits. -/
def decimalMagnitude (b : Nat) (e : Int) : Int :=
  if 0 ≤ e then ((natChars (b <<< e.toNat)).length : Int) - 1
  else
    let den := 1 <<< (-e).toNat
    if den ≤ b then ((natChars (b / den)).length : Int) - 1
    else
      -- `10 ^ k · b ≥ den` for the least such `k`
      let guess := (natChars (den / b)).length - 1
      if den ≤ b * Nat.pow 10 guess then -(guess : Int) else -((guess : Int) + 1)

/-- The value cut off after `count` significant digits. -/
def Rounding.cut (r : Rounding) (magnitude : Int) (count : Nat) : Shortest :=
  let k := magnitude - (count : Int) + 1
  let num := (r.value * Nat.pow 10 (-k).toNat) <<< r.exponent.toNat
  let den := Nat.pow 10 k.toNat <<< (-r.exponent).toNat
  ⟨num / den, k⟩

/-- The better of the two neighbours of the value at the given number of digits, if one reads
back: the nearer one, the upper one if both are as near. -/
def Rounding.neighbour? (r : Rounding) (magnitude : Int) (count : Nat) : Option Shortest :=
  let down := r.cut magnitude count
  let up : Shortest := ⟨down.digits + 1, down.exponent⟩
  match r.admits down, r.admits up with
  | true, true =>
    -- twice the value against the sum of both neighbours
    match compareScales (down.digits + up.digits) down.exponent (2 * r.value) r.exponent with
    | .gt => some down
    | _ => some up
  | true, false => some down
  | false, true => some up
  | false, false => none

/-- The first count of digits, from `count` on and for at most `fuel` counts, at which a neighbour
reads back. -/
def Rounding.search (r : Rounding) (magnitude : Int) : (fuel count : Nat) → Shortest
  | 0, count => r.cut magnitude count
  | fuel + 1, count =>
    match r.neighbour? magnitude count with
    | some d => d
    | none => r.search magnitude fuel (count + 1)

/-- The fewest decimal digits that read back as `significand · 2 ^ exponent`, nearest to it among
those. Seventeen digits always suffice for the formats here. -/
def Shortest.of (f : Format) (significand : Nat) (exponent : Int) : Shortest :=
  let r := Rounding.of f significand exponent
  r.search (decimalMagnitude r.value r.exponent) 17 1

/-- Trailing zeros moved into the exponent are written out again, and places below one get a
point: the number without any exponent. -/
def Shortest.positional (d : Shortest) : List Char :=
  let digits := natChars d.digits
  if 0 ≤ d.exponent then digits ++ List.replicate d.exponent.toNat '0'
  else
    let places := (-d.exponent).toNat
    if places < digits.length then
      digits.take (digits.length - places) ++ '.' :: digits.drop (digits.length - places)
    else '0' :: '.' :: List.replicate (places - digits.length) '0' ++ digits

/-- A decimal number without zeros at the end of its digits. -/
def Shortest.stripped (d : Shortest) : (fuel : Nat) → Shortest
  | 0 => d
  | fuel + 1 =>
    if d.digits != 0 && d.digits % 10 == 0 then
      Shortest.stripped ⟨d.digits / 10, d.exponent + 1⟩ fuel
    else d

namespace Binary

variable {f : Format}

/-- The shortest text that reads back, positional and never with an exponent. -/
def text (x : Binary f) : String :=
  match x.decode with
  | .nan _ => "NaN"
  | .infinite false => "inf"
  | .infinite true => "-inf"
  | .finite s m e =>
    let magnitude :=
      if m == 0 then ['0'] else ((Shortest.of f m e).stripped 400).positional
    String.ofList (if s then '-' :: magnitude else magnitude)

/-- The texts of the numbers that have no digits, in lower case. -/
def namedMagnitude? (s : List Char) (negative : Bool) : Option (Binary f) :=
  let lower := s.map Char.toLower
  if lower == "inf".toList || lower == "infinity".toList then some (infinity f negative)
  else if lower == "nan".toList then some (nan f negative)
  else none

/-- `± digits · 10 ^ exponent`, rounded once. Far outside the range of the formats the power of
ten is not computed. -/
def ofDecimal (f : Format) (negative : Bool) (digits : Nat) (exponent : Int) : Binary f :=
  let size : Int := (natChars digits).length
  if digits == 0 then withSign f negative 0
  else if 400 < size + exponent then infinity f negative
  else if size + exponent < -400 then withSign f negative 0
  else ofRatio f negative (digits * Nat.pow 10 exponent.toNat) (Nat.pow 10 (-exponent).toNat)

/-- The exponent part of a decimal text: nothing, or a letter, an optional sign and digits. -/
def parseExponent? : List Char → Option Int
  | [] => some 0
  | c :: rest => if c == 'e' || c == 'E' then parseInt? rest else none

/-- The number that an unsigned decimal text denotes: digits with an optional point and at least
one digit on either side of it, and an optional exponent. -/
def parseMagnitude? (f : Format) (negative : Bool) (s : List Char) : Option (Binary f) :=
  let whole := s.takeWhile Char.isDigit
  let afterWhole := s.dropWhile Char.isDigit
  let (fraction, rest) :=
    match afterWhole with
    | '.' :: r => (r.takeWhile Char.isDigit, r.dropWhile Char.isDigit)
    | r => ([], r)
  if whole.isEmpty && fraction.isEmpty then none
  else
    (parseExponent? rest).map fun e =>
      ofDecimal f negative (digitsValue (whole ++ fraction)) (e - fraction.length)

/-- Reads a decimal text, `inf`, `infinity` or `nan` in any case, each with an optional sign. -/
def parse? (f : Format) (s : List Char) : Option (Binary f) :=
  let (negative, body) :=
    match s with
    | '-' :: r => (true, r)
    | '+' :: r => (false, r)
    | r => (false, r)
  match namedMagnitude? body negative with
  | some x => some x
  | none => parseMagnitude? f negative body

end Binary

end TypedSheets.Number
