import TypedSheets.Text.Basic
import TypedSheets.Text.Words

/-!
# Naming

How the name of a member becomes the name of a column, of a property, of a getter and of a setter.
Every form is made by cutting a name into words and joining the words again.

* `Naming` — the four ways of joining words
* `Naming.apply`, `Naming.wireName` — a text, and a member name, under a strategy
* `stripFieldPrefix?` — a member name without the prefix of a private field
* `propertyName`, `fieldName`, `getterName`, `setterName` — the derived names
* `MemberKind.of` — field or property
-/

namespace TypedSheets

/-- A naming strategy: how the columns of a sheet are spelled. -/
inductive Naming where
  | pascal
  | camel
  | snake
  | kebab
  deriving DecidableEq, Repr, Inhabited

namespace Naming

/-- The strategies, in the order in which they are listed. -/
def all : List Naming := [.pascal, .camel, .snake, .kebab]

/-- The strategy's own name, spelled in its own way. -/
def name : Naming → String
  | .pascal => "PascalCase"
  | .camel => "camelCase"
  | .snake => "snake_case"
  | .kebab => "kebab-case"

/-- The strategy of that exact name, long or short. -/
def ofName? (text : String) : Option Naming :=
  if text == "PascalCase" || text == "pascal" then some .pascal
  else if text == "camelCase" || text == "camel" then some .camel
  else if text == "snake_case" || text == "snake" then some .snake
  else if text == "kebab-case" || text == "kebab" then some .kebab
  else none

/-- A name that no strategy has. -/
structure UnknownName where
  text : String
  deriving DecidableEq

/-- The wording of the error. -/
def UnknownName.message (e : UnknownName) : String :=
  "unknown naming strategy `" ++ e.text ++
    "`, expected PascalCase, camelCase, snake_case or kebab-case"

/-- Reads a strategy from a text, white space around it aside. -/
def parse (text : String) : Except UnknownName Naming :=
  match ofName? (Text.trim text) with
  | some naming => .ok naming
  | none => .error ⟨Text.trim text⟩

/-- Joins words in the strategy's way. -/
def joinWords : Naming → List (List Text.Cluster) → List Char
  | .pascal, ws => ws.flatMap Text.capitalized
  | .camel, [] => []
  | .camel, w :: ws => Text.lowered w ++ ws.flatMap Text.capitalized
  | .snake, ws => ['_'].intercalate (ws.map Text.lowered)
  | .kebab, ws => ['-'].intercalate (ws.map Text.lowered)

/-- The characters of a name under the strategy. -/
def applyChars (n : Naming) (name : List Char) : List Char := n.joinWords (Text.words name)

/-- A name under the strategy. -/
def apply (n : Naming) (name : String) : String := String.ofList (n.applyChars name.toList)

@[simp] theorem toList_apply (n : Naming) (name : String) :
    (n.apply name).toList = n.applyChars name.toList := by
  simp [apply]

theorem ofName?_name (n : Naming) : ofName? n.name = some n := by
  cases n <;> decide

end Naming

/-- The prefixes of private fields, the one that is tried first in front. -/
def fieldPrefixes : List String := ["m_", "_"]

/-- A text without that start, if it starts so. -/
def dropStart? (start text : List Char) : Option (List Char) :=
  if start.isPrefixOf text then some (text.drop start.length) else none

/-- What follows the first private prefix that matches; `none` if none does or nothing follows. -/
def stripFieldPrefix? (declared : String) : Option String :=
  match fieldPrefixes.findSome? (fun p => dropStart? p.toList declared.toList) with
  | some [] => none
  | some rest => some (String.ofList rest)
  | none => none

/-- The logical name of a member: without private prefix, in title case. -/
def propertyName (declared : String) : String :=
  Naming.pascal.apply ((stripFieldPrefix? declared).getD declared)

/-- The name of the private field behind a logical member. -/
def fieldName (property : String) : String := "_" ++ Naming.snake.apply property

/-- The name of the method that reads a member. -/
def getterName (declared : String) : String := Naming.snake.apply (propertyName declared)

/-- The name of the method that replaces a member. -/
def setterName (declared : String) : String := "set_" ++ getterName declared

/-- The name of a member's column under a strategy. -/
def Naming.wireName (n : Naming) (declared : String) : String := n.apply (propertyName declared)

/-- A member with a private prefix is a field, any other is a property. -/
inductive MemberKind where
  | field
  | property
  deriving DecidableEq, Repr

/-- The kind of a member of that name. -/
def MemberKind.of (declared : String) : MemberKind :=
  if (stripFieldPrefix? declared).isSome then .field else .property

/-- The kind's name. -/
def MemberKind.name : MemberKind → String
  | .field => "Field"
  | .property => "Property"

end TypedSheets
