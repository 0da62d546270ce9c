import TypedSheets.Text.Basic
import TypedSheets.Text.Table.Cased
import TypedSheets.Text.Table.LetterCase

/-!
# Upper and lower case

The full case forms of a text, with no language of its own: a letter may become several, and a
capital sigma becomes the final small sigma at the end of a word.

* `Text.upperForm`, `Text.lowerForm` — the forms of one character
* `Text.upperChars`, `Text.lowerChars` — the forms of a text
* `Text.lowerAsciiChar` — lower case among the ASCII letters only
-/

namespace TypedSheets.Text

/-- The image of a code point under the runs, `none` if no run holds it. -/
def caseImage : List Table.CaseRun → Nat → Option Nat
  | [], _ => none
  | run :: rest, n =>
    if run.first ≤ n && n ≤ run.last && (n - run.first) % run.step == 0 then
      some (Int.toNat (n + run.shift))
    else caseImage rest n

/-- The case form of a character by a table of long forms and a table of runs. -/
def caseForm (long : List (Nat × List Nat)) (runs : List Table.CaseRun) (c : Char) : List Char :=
  match long.lookup c.toNat with
  | some form => form.map Char.ofNat
  | none =>
    match caseImage runs c.toNat with
    | some n => [Char.ofNat n]
    | none => [c]

/-- The upper case form of a character. -/
def upperForm (c : Char) : List Char :=
  if c.toNat < 0x80 then [c.toUpper] else caseForm Table.upperLong Table.upperRuns c

/-- The lower case form of a character that stands alone. -/
def lowerForm (c : Char) : List Char :=
  if c.toNat < 0x80 then [c.toLower] else caseForm Table.lowerLong Table.lowerRuns c

/-- The capital sigma, whose lower case form depends on its place. -/
def capitalSigma : Char := Char.ofNat 0x3A3

/-- Whether the first character that is not case-ignorable is cased. -/
def startsCased (s : List Char) : Bool :=
  match s.dropWhile (fun c => inRanges Table.caseIgnorable c.toNat) with
  | [] => false
  | c :: _ => inRanges Table.cased c.toNat

/-- The upper case form of a text. -/
def upperChars (s : List Char) : List Char := s.flatMap upperForm

/-- The lower case form of the rest of a text whose characters `before`, last one first, are done.
A capital sigma after a cased character and before none is the end of a word. -/
def lowerFrom (before : List Char) : List Char → List Char
  | [] => []
  | c :: rest =>
    let form :=
      if c == capitalSigma then
        if startsCased before && !startsCased rest then [Char.ofNat 0x3C2] else [Char.ofNat 0x3C3]
      else lowerForm c
    form ++ lowerFrom (c :: before) rest

/-- The lower case form of a text. -/
def lowerChars (s : List Char) : List Char := lowerFrom [] s

/-- The lower case form of a text. -/
def lower (s : String) : String := String.ofList (lowerChars s.toList)

/-- Lower case among the ASCII letters, every other character as it is. -/
def lowerAsciiChar (c : Char) : Char := c.toLower

/-- The text with its ASCII letters in lower case. -/
def lowerAscii (s : String) : String := String.ofList (s.toList.map lowerAsciiChar)

end TypedSheets.Text
