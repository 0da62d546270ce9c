import TypedSheets.Number.Digits

/-!
# TOML: dates and times

A moment is a date, a time of day, or both, and then perhaps with a zone. Seconds may be left out. A
moment is kept by its parts and written in one form, whatever form it was read from.

* `Toml.Moment` — a moment
* `Toml.Moment.ofChars?` — the moment that a text spells
* `Toml.Moment.text` — its text
-/

namespace TypedSheets.Toml

open Number

/-- A day of the calendar. -/
structure CalendarDate where
  year : Nat
  month : Nat
  day : Nat

/-- A time of day. A fraction counts the billionths of a second. -/
structure DayTime where
  hour : Nat
  minute : Nat
  second : Option (Nat × Option Nat)

/-- The distance from universal time. -/
inductive Zone where
  | universal
  | offset (minutes : Int)

/-- A date, a time of day, or both. -/
inductive Moment where
  | date (d : CalendarDate)
  | time (t : DayTime)
  | both (d : CalendarDate) (t : DayTime) (zone : Option Zone)

/-- A number of exactly that many digits and the text behind it. No more digits may follow. -/
def fixedNumber? (width : Nat) (s : List Char) : Option (Nat × List Char) :=
  let digits := s.takeWhile Char.isDigit
  if digits.length == width then some (digitsValue digits, s.dropWhile Char.isDigit) else none

/-- A number of exactly that many digits in a range and the text behind it. -/
def boundedNumber? (width lo hi : Nat) (s : List Char) : Option (Nat × List Char) :=
  match fixedNumber? width s with
  | some (n, rest) => if lo ≤ n && n ≤ hi then some (n, rest) else none
  | none => none

/-- The text behind a character that has to come first. -/
def behind? (c : Char) : List Char → Option (List Char)
  | d :: rest => if d == c then some rest else none
  | [] => none

/-- Whether a year has a leap day. -/
def isLeapYear (year : Nat) : Bool := year % 4 == 0 && (year % 100 != 0 || year % 400 == 0)

/-- How many days a month has. -/
def daysOfMonth (year month : Nat) : Nat :=
  if month == 2 then if isLeapYear year then 29 else 28
  else if [4, 6, 9, 11].contains month then 30
  else 31

/-- A date and the text behind it. -/
def date? (s : List Char) : Option (CalendarDate × List Char) := do
  let (year, s) ← fixedNumber? 4 s
  let s ← behind? '-' s
  let (month, s) ← boundedNumber? 2 1 12 s
  let s ← behind? '-' s
  let (day, s) ← boundedNumber? 2 1 (daysOfMonth year month) s
  return (⟨year, month, day⟩, s)

/-- The billionths that the digits behind the point of a second stand for; digits behind the ninth
do not count. -/
def billionths (digits : List Char) : Nat :=
  digitsValue ((digits ++ List.replicate 9 '0').take 9)

/-- The fraction of a second, if a point comes first, and the text behind it. -/
def fraction? (s : List Char) : Option (Option Nat × List Char) :=
  match s with
  | '.' :: rest =>
    let digits := rest.takeWhile Char.isDigit
    if digits.isEmpty then none else some (some (billionths digits), rest.dropWhile Char.isDigit)
  | s => some (none, s)

/-- The second, if a colon comes first, and the text behind it. -/
def second? (s : List Char) : Option (Option (Nat × Option Nat) × List Char) :=
  match s with
  | ':' :: rest => do
    let (second, rest) ← boundedNumber? 2 0 60 rest
    let (fraction, rest) ← fraction? rest
    return (some (second, fraction), rest)
  | s => some (none, s)

/-- A time of day and the text behind it. -/
def dayTime? (s : List Char) : Option (DayTime × List Char) := do
  let (hour, s) ← boundedNumber? 2 0 23 s
  let s ← behind? ':' s
  let (minute, s) ← boundedNumber? 2 0 59 s
  let (second, s) ← second? s
  return (⟨hour, minute, second⟩, s)

/-- The zone that a whole text is; no text is no zone. -/
def zone? : List Char → Option (Option Zone)
  | [] => some none
  | ['Z'] => some (some .universal)
  | ['z'] => some (some .universal)
  | sign :: s =>
    if sign == '+' || sign == '-' then do
      let (hours, s) ← boundedNumber? 2 0 23 s
      let s ← behind? ':' s
      let (minutes, s) ← boundedNumber? 2 0 59 s
      let total : Int := hours * 60 + minutes
      if s.isEmpty then some (some (.offset (if sign == '-' then -total else total))) else none
    else none

/-- Whether a character stands between a date and a time. -/
def isTimeMark (c : Char) : Bool := c == 'T' || c == 't' || c == ' '

/-- The moment that a text spells. -/
def Moment.ofChars? (s : List Char) : Option Moment :=
  match date? s with
  | some (d, []) => some (.date d)
  | some (d, mark :: rest) =>
    if isTimeMark mark then do
      let (t, rest) ← dayTime? rest
      let zone ← zone? rest
      return .both d t zone
    else none
  | none =>
    match dayTime? s with
    | some (t, []) => some (.time t)
    | _ => none

/-- A number with zeros in front up to a width. -/
def padded (width n : Nat) : List Char :=
  let digits := natChars n
  List.replicate (width - digits.length) '0' ++ digits

/-- The characters of a date. -/
def CalendarDate.chars (d : CalendarDate) : List Char :=
  padded 4 d.year ++ '-' :: padded 2 d.month ++ '-' :: padded 2 d.day

/-- The characters of a fraction: no zeros at its end, but at least one digit. -/
def fractionChars (n : Nat) : List Char :=
  let digits := ((padded 9 n).reverse.dropWhile (· == '0')).reverse
  '.' :: if digits.isEmpty then ['0'] else digits

/-- The characters of a time of day. -/
def DayTime.chars (t : DayTime) : List Char :=
  let second :=
    match t.second with
    | some (n, some fraction) => ':' :: padded 2 n ++ fractionChars fraction
    | some (n, none) => ':' :: padded 2 n
    | none => []
  padded 2 t.hour ++ ':' :: padded 2 t.minute ++ second

/-- The characters of a zone. -/
def Zone.chars : Zone → List Char
  | .universal => ['Z']
  | .offset minutes =>
    (if minutes < 0 then '-' else '+') ::
      (padded 2 (minutes.natAbs / 60) ++ ':' :: padded 2 (minutes.natAbs % 60))

/-- The characters of a moment. -/
def Moment.chars : Moment → List Char
  | .date d => d.chars
  | .time t => t.chars
  | .both d t zone =>
    d.chars ++ 'T' :: t.chars ++
      match zone with
      | some z => z.chars
      | none => []

/-- The text of a moment. -/
def Moment.text (m : Moment) : String := String.ofList m.chars

end TypedSheets.Toml
