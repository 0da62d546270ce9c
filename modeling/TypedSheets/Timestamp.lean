import TypedSheets.Number.Digits

/-!
# Dates and times as text

A date is `year-month-day`, a time of day is `hour:minute:second` with an optional fraction, and a
zone is `Z` or a signed offset. A timestamp has all three.

* `isDate`, `isZone` — the forms
* `Timestamp` — a text of the full form
-/

namespace TypedSheets

/-- Whether characters are digits in that number. -/
def isDigits (count : Nat) (s : List Char) : Bool := s.length == count && s.all Char.isDigit

/-- Whether two characters are digits for a number in a range. -/
def isTwoDigits (lo hi : Nat) (s : List Char) : Bool :=
  isDigits 2 s && lo ≤ Number.digitsValue s && Number.digitsValue s ≤ hi

/-- Whether characters have the form of a date. -/
def isDate (s : List Char) : Bool :=
  s.length == 10 && isDigits 4 (s.take 4) && (s.drop 4).head? == some '-' &&
    isTwoDigits 1 12 ((s.drop 5).take 2) && (s.drop 7).head? == some '-' &&
    isTwoDigits 1 31 (s.drop 8)

/-- Whether eight characters have the form of hour, minute and second. -/
def isClock (s : List Char) : Bool :=
  s.length == 8 && isTwoDigits 0 23 (s.take 2) && (s.drop 2).head? == some ':' &&
    isTwoDigits 0 59 ((s.drop 3).take 2) && (s.drop 5).head? == some ':' &&
    isTwoDigits 0 60 (s.drop 6)

/-- Whether characters are a zone: `Z` or hours and minutes with a sign. -/
def isZone : List Char → Bool
  | ['Z'] => true
  | ['z'] => true
  | sign :: rest =>
    (sign == '+' || sign == '-') && rest.length == 5 && isDigits 2 (rest.take 2) &&
      (rest.drop 2).head? == some ':' && isDigits 2 (rest.drop 3)
  | [] => false

/-- The characters behind the fraction of a second; without digits behind its point there is
none. -/
def afterFraction : List Char → List Char
  | '.' :: rest =>
    if (rest.takeWhile Char.isDigit).isEmpty then '.' :: rest else rest.dropWhile Char.isDigit
  | rest => rest

/-- Whether characters have the form of a time of day with a zone. -/
def isZonedTime (s : List Char) : Bool := isClock (s.take 8) && isZone (afterFraction (s.drop 8))

/-- Whether a character stands between a date and a time. -/
def isTimeMark (c : Char) : Bool := c == 'T' || c == 't' || c == ' '

/-- Whether a text has the form of a date and time with a zone. -/
def isTimestamp (text : String) : Bool :=
  let s := text.toList
  isDate (s.take 10) && (s.drop 10).head?.any isTimeMark && isZonedTime (s.drop 11)

/-- When something happened, as text. -/
structure Timestamp where
  text : String
  isTimestamp_text : isTimestamp text = true

namespace Timestamp

/-- The moment from which time is counted. -/
def epoch : Timestamp := ⟨"1970-01-01T00:00:00Z", by decide⟩

/-- The timestamp that a text is. -/
def ofText? (text : String) : Option Timestamp :=
  if h : isTimestamp text = true then some ⟨text, h⟩ else none

end Timestamp

end TypedSheets
