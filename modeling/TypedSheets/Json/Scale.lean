import TypedSheets.Json.Basic
import TypedSheets.Number.Decimal

/-!
# The value of a JSON number

A number token is read in three roundings: the digits are gathered into a word of 64 bits as far as
they fit, the word is rounded to a double, and the double is multiplied or divided by a power of
ten. Numbers that overflow are refused.

* `JsonNumber.Token` — the parts of a token
* `JsonNumber.ofToken?` — its value
-/

namespace TypedSheets.JsonNumber

open Number

/-- The parts of a number token. -/
structure Token where
  negative : Bool
  /-- Digits before the point. -/
  whole : List Char
  /-- Digits behind the point, if there is one. -/
  fraction : Option (List Char)
  /-- Sign and digits of the exponent, if there is one. -/
  exponent : Option (Bool × List Char)

/-- The greatest word of 64 bits. -/
def maxWord : Nat := UInt64.size - 1

/-- The greatest exponent that is computed with. -/
def maxExponent : Nat := 0x7fffffff

/-- A word and the decimal digits that did not fit into it any more. -/
def gather (word : Nat) : List Char → Nat × List Char
  | [] => (word, [])
  | c :: rest =>
    let next := 10 * word + digitValue c
    if next ≤ maxWord then gather next rest else (word, c :: rest)

/-- Ten to the `n` as a double. -/
def powerOfTen (n : Nat) : Double := Binary.ofRatio .double false (Nat.pow 10 n) 1

/-- A double scaled by a power of ten, in at most `fuel` steps of 308 places downwards; `none` if
the result is too large. -/
def scale : (fuel : Nat) → Double → Int → Option Double
  | 0, x, _ => some x
  | fuel + 1, x, e =>
    if e.natAbs ≤ 308 then
      if 0 ≤ e then
        let y := x.mul (powerOfTen e.natAbs)
        if y.isInfinite then none else some y
      else some (x.div (powerOfTen e.natAbs))
    else if x.isZero then some x
    else if 0 ≤ e then none
    else scale fuel (x.div (powerOfTen 308)) (e + 308)

/-- `± word · 10 ^ e`. -/
def ofParts? (negative : Bool) (word : Nat) (e : Int) : Option JsonNumber :=
  (scale 8 (Binary.ofInt .double word) e).map fun x =>
    .float (if negative then x.negate else x)

/-- The exponent of a token: `none` if its digits are too many to compute with. -/
def exponentValue? (digits : List Char) : Option Nat :=
  let e := digitsValue digits
  if e ≤ maxExponent then some e else none

/-- `± word · 10 ^ (start ± exponent)`. An exponent beyond all computing gives zero or is
refused. -/
def ofExponent? (negative : Bool) (word : Nat) (start : Int) :
    Option (Bool × List Char) → Option JsonNumber
  | none => ofParts? negative word start
  | some (down, digits) =>
    match exponentValue? digits with
    | some e => ofParts? negative word (if down then start - e else start + e)
    | none =>
      if word != 0 && !down then none
      else some (.float (Binary.withSign .double negative 0))

/-- The value of a token; `none` if it is too large for a double. An integer token that fits is an
integer, but negative zero is a double. -/
def ofToken? (t : Token) : Option JsonNumber :=
  let (word, dropped) := gather 0 t.whole
  match t.fraction, t.exponent with
  | none, none =>
    if !dropped.isEmpty then ofParts? t.negative word dropped.length
    else if !t.negative then some (.int word)
    else if word == 0 || 0x8000000000000000 < word then
      some (.float (Binary.ofInt .double word).negate)
    else some (.int (-(word : Int)))
  | fraction, exponent =>
    let (word', left) := gather word (fraction.getD [])
    let taken := (fraction.getD []).length - left.length
    ofExponent? t.negative word' ((dropped.length : Int) - taken) exponent

end TypedSheets.JsonNumber
