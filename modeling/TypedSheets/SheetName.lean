import TypedSheets.Number.Digits
import TypedSheets.Text.Basic

/-!
# Sheet names

Sheets of comments are written `$name` or `<name>`: pseudo sheets. Every other name that is not
blank is regular. A sheet is kept under a file name, in which brackets become a dollar sign.

* `SheetName.isPseudo`, `SheetName.isValid`
* `SheetName.fileName?` — the file name of a sheet
-/

namespace TypedSheets.SheetName

/-- Whether a name is that of a pseudo sheet. -/
def isPseudoChars (trimmed : List Char) : Bool :=
  trimmed.head? == some '$' || trimmed.head? == some '<' || trimmed.getLast? == some '>'

/-- Whether a name is that of a pseudo sheet. -/
def isPseudo (name : String) : Bool := isPseudoChars (Text.trimChars name.toList)

/-- Whether a name is regular. -/
def isValid (name : String) : Bool := !Text.isBlank name && !isPseudo name

/-- The text between angle brackets. -/
def bracketed? : List Char → Option (List Char)
  | '<' :: rest =>
    match rest.reverse with
    | '>' :: inner => some inner.reverse
    | _ => none
  | _ => none

/-- The file name of a sheet without a name, at a position that is known. -/
def positional? (position : Option Nat) : Option String :=
  position.map fun i => "$" ++ Number.natText i

/-- The file name of a sheet. A name that is blank or holds only brackets needs a position. -/
def fileName? (name : String) (position : Option Nat) : Option String :=
  match Text.trimChars name.toList with
  | [] => positional? position
  | trimmed =>
    match bracketed? trimmed with
    | none => some (String.ofList trimmed)
    | some inner =>
      match Text.trimChars inner with
      | [] => positional? position
      | inner => some (String.ofList ('$' :: inner))

end TypedSheets.SheetName
