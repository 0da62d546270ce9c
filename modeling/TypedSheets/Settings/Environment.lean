import TypedSheets.Number.Digits
import TypedSheets.Settings.Setting

/-!
# Addresses and environment variables

An address says where a setting is kept: a key of the whole, then keys behind dots and positions in
brackets. A position below zero counts from the end of its list. The name of an environment variable
is an address with double underscores between the keys, without regard to case; only names that
start with a mark count. The text of a variable is a truth value or a number if it reads as one.

* `Setting.Step`, `Setting.Address` — addresses
* `Setting.Address.parse?` — the address that a text spells
* `Setting.putAt` — lays a setting over the one at an address
* `Environment.address?` — the address that the name of a variable stands for
* `Environment.setting` — the setting that its text stands for
* `Environment.overlay` — settings with those of variables laid over them
-/

namespace TypedSheets.Setting

/-- One step down. -/
inductive Step where
  | key (name : String)
  | position (i : Int)

/-- Where a setting is kept. -/
structure Address where
  root : String
  steps : List Step

/-- The address of a key of the whole. -/
def Address.ofKey (key : String) : Address := ⟨key, []⟩

/-- Whether a character may be part of a key in an address. -/
def isKeyChar (c : Char) : Bool := c.isAlphanum || c == '_' || c == '-'

/-- A key and the text behind it. -/
def stepKey? (s : List Char) : Option (String × List Char) :=
  let key := s.takeWhile isKeyChar
  if key.isEmpty then none else some (String.ofList key, s.dropWhile isKeyChar)

/-- The text without blanks in front. -/
def skipBlanks (s : List Char) : List Char := s.dropWhile fun c => c == ' ' || c == '\t'

/-- A position up to and with its closing bracket, and the text behind it. -/
def position? (s : List Char) : Option (Int × List Char) :=
  let isPart (c : Char) : Bool := c == '-' || c.isDigit
  let s := skipBlanks s
  let number := s.takeWhile isPart
  match number.head?, Number.parseInt? number, skipBlanks (s.dropWhile isPart) with
  | some _, some i, ']' :: rest => if -(1 <<< 63) ≤ i && i < 1 <<< 63 then some (i, rest) else none
  | _, _, _ => none

/-- The steps that a text spells, in at most that many. -/
def steps? : (fuel : Nat) → List Char → Option (List Step)
  | _, [] => some []
  | 0, _ => none
  | fuel + 1, '.' :: s =>
    match stepKey? s with
    | some (key, rest) => (steps? fuel rest).map (.key key :: ·)
    | none => none
  | fuel + 1, '[' :: s =>
    match position? s with
    | some (i, rest) => (steps? fuel rest).map (.position i :: ·)
    | none => none
  | _, _ => none

/-- The address that a text spells. -/
def Address.parse? (text : String) : Option Address :=
  let s := text.toList
  match stepKey? s with
  | some (root, rest) => (steps? s.length rest).map fun steps => ⟨root, steps⟩
  | none => none

/-- The address of a text: what spells none is a key of the whole. -/
def Address.ofText (text : String) : Address := (parse? text).getD (.ofKey text)

/-- The items of a list; what is no list has none. -/
def items : Setting → List Setting
  | .list items => items
  | _ => []

/-- A list in which a position is filled, and the place of that position. -/
def reached (items : List Setting) (i : Int) : List Setting × Nat :=
  if 0 ≤ i then (items ++ List.replicate (i.toNat + 1 - items.length) .null, i.toNat)
  else if i.natAbs ≤ items.length then (items, items.length - i.natAbs)
  else (List.replicate (i.natAbs - items.length) .null ++ items, 0)

/-- The setting with another one laid over what is kept below it. What stands in the way of a step
gives way to a table or a list. -/
def putBelow (s : Setting) : (steps : List Step) → Setting → Setting
  | [], v => s.overlaid v
  | .key name :: rest, v =>
    s.withEntry name (putBelow ((s.entry? name).getD .null) rest v)
  | .position i :: rest, v =>
    let (items, place) := reached s.items i
    .list (items.set place (putBelow (items.getD place .null) rest v))

/-- The table with a setting laid over the one at an address. -/
def putAt (root : Setting) (a : Address) (v : Setting) : Setting :=
  root.putBelow (.key a.root :: a.steps) v

end TypedSheets.Setting

namespace TypedSheets.Environment

/-- Environment variables: their names and texts. -/
abbrev Variables : Type := List (String × String)

/-- The text with each double underscore, from the left, made a dot. -/
def withDots : List Char → List Char
  | '_' :: '_' :: rest => '.' :: withDots rest
  | c :: rest => c :: withDots rest
  | [] => []

/-- The address that the name of a variable stands for, if it starts with the mark. -/
def address? (mark name : String) : Option Setting.Address :=
  let lower := Text.lowerChars name.toList
  if mark.toList.isPrefixOf lower then
    some (.ofText (String.ofList (withDots (lower.drop mark.length))))
  else none

/-- The integer of 64 bits that a text spells. -/
def int? (text : String) : Option Int :=
  (Number.parseInt? text.toList).bind fun i => if IntKind.i64.Holds i then some i else none

/-- The setting that the text of a variable stands for. -/
def setting (text : String) : Setting :=
  let lower := String.ofList (Text.lowerChars text.toList)
  if lower == "true" then .bool true
  else if lower == "false" then .bool false
  else
    match int? text, Number.Binary.parse? .double text.toList with
    | some i, _ => .int i
    | none, some d => .float d
    | none, none => .text text

/-- The settings with those of variables laid over them. -/
def overlay (mark : String) (root : Setting) (vars : Variables) : Setting :=
  vars.foldl
    (fun root v =>
      match address? mark v.1 with
      | some a => root.putAt a (setting v.2)
      | none => root)
    root

end TypedSheets.Environment
