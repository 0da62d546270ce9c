import TypedSheets.Entries
import TypedSheets.Number.Binary

/-!
# JSON values

* `Json` — values; a number is an integer of at most 64 bits or a double
* `Json.ofMembers` — an object with its members sorted by name, each name once
* `Json.texts`, `Json.maybe` — small builders
-/

namespace TypedSheets

/-- A JSON number: an integer token that fits 64 bits, signed or not, or a double. -/
inductive JsonNumber where
  | int (i : Int)
  | float (d : Number.Double)
  deriving DecidableEq

/-- A JSON value. -/
inductive Json where
  | null
  | bool (b : Bool)
  | number (n : JsonNumber)
  | string (s : String)
  | array (items : List Json)
  | object (members : List (String × Json))
  deriving Inhabited

namespace Json

/-- An object with these members, sorted by name; of several with one name the last counts. -/
def ofMembers (members : List (String × Json)) : Json :=
  .object (Entries.ofList compareText members)

/-- An integer number. -/
def int (i : Int) : Json := .number (.int i)

/-- A natural number. -/
def nat (n : Nat) : Json := .number (.int n)

/-- The member of an object. -/
def member? (name : String) : Json → Option Json
  | .object members => Entries.get? compareText name members
  | _ => none

/-- An array of texts. -/
def texts (ss : List String) : Json := .array (ss.map .string)

/-- The view of a value that may be missing; a missing one is null. -/
def maybe {α : Type} (view : α → Json) : Option α → Json
  | some x => view x
  | none => .null

end Json

end TypedSheets
