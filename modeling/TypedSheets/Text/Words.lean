import TypedSheets.Text.Case
import TypedSheets.Text.Table.Mark

/-!
# The words of a name

A name is cut into words at separators, at a change of case and around digits, and the words are
joined again in one of four ways. A letter with the marks that follow it counts as one.

* `Text.Cluster` — a character with its marks
* `Text.endsBetween` — where a word ends between two clusters
* `Text.words` — the words of a name
* `Text.capitalized` — a word with a capital in front
-/

namespace TypedSheets.Text

/-- A character with the marks that follow it. -/
abbrev Cluster := List Char

/-- Whether a character belongs to the one before it. -/
def isMark (c : Char) : Bool :=
  inRanges Table.extending c.toNat || inRanges Table.spacing c.toNat

/-- The clusters of a text: each mark joins the cluster before it. -/
def clusters (s : List Char) : List Cluster :=
  s.foldr
    (fun c done =>
      match done with
      | (m :: marks) :: rest => if isMark m then (c :: m :: marks) :: rest else [c] :: done
      | _ => [c] :: done)
    []

/-- Underscore, hyphen and space stand between words and belong to none. -/
def isSeparator (c : Cluster) : Bool := c == ['_'] || c == ['-'] || c == [' ']

/-- Only the ASCII digits are digits. -/
def isDigits (c : Cluster) : Bool := c.all Char.isDigit

/-- A cluster that has case and is its own upper case form. -/
def isUpperCase (c : Cluster) : Bool := upperChars c != lowerChars c && c == upperChars c

/-- A cluster that has case and is its own lower case form. -/
def isLowerCase (c : Cluster) : Bool := upperChars c != lowerChars c && c == lowerChars c

/-- Whether a word ends between `prev` and `cur`, with `next` behind them: at a change from lower
to upper case, between a letter and a digit, and before the last capital of several that a small
letter follows. -/
def endsBetween (prev cur : Cluster) (next : Option Cluster) : Bool :=
  (isLowerCase prev && (isUpperCase cur || isDigits cur)) ||
  (isUpperCase prev && isDigits cur) ||
  (isDigits prev && (isUpperCase cur || isLowerCase cur)) ||
  (isUpperCase prev && isUpperCase cur && next.any isLowerCase)

/-- The words of the rest of a name, given the cluster before it and the open word. -/
def wordsFrom (prev : Option Cluster) (word : List Cluster) :
    List Cluster → List (List Cluster)
  | [] => [word]
  | c :: rest =>
    if isSeparator c then word :: wordsFrom (some c) [] rest
    else if prev.any (fun p => endsBetween p c rest.head?) then
      word :: wordsFrom (some c) [c] rest
    else wordsFrom (some c) (word ++ [c]) rest

/-- The words of a name, in order and none of them empty. -/
def words (name : List Char) : List (List Cluster) :=
  (wordsFrom none [] (clusters name)).filter (fun w => !w.isEmpty)

/-- A word in lower case. -/
def lowered (word : List Cluster) : List Char := lowerChars word.flatten

/-- A word with its first cluster in upper case and the others in lower case. -/
def capitalized : List Cluster → List Char
  | [] => []
  | c :: rest => upperChars c ++ lowerChars rest.flatten

end TypedSheets.Text
