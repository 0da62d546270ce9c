import TypedSheets.Number.Digits
import TypedSheets.Text.Basic

/-!
# Type shapes

The declared type of a member, reduced to the parts that its meaning depends on: paths with the
type arguments of their last segment, arrays, slices, references and tuples. Any other type is kept
as its text.

* `TypeShape` — shapes, with decidable equality
* `TypeShape.text` — the written form
* `TypeShape.ident?`, `TypeShape.args` — last segment and arguments of a path
* `TypeShape.unwrapOption` — the type inside options
* `TypeShape.lastSegments` — every path reduced to its last segment
-/

namespace TypedSheets

/-- A declared type. -/
inductive TypeShape where
  | path (segments : List String) (args : List TypeShape)
  | array (elem : TypeShape) (length : String)
  | slice (elem : TypeShape)
  | reference (isMutable : Bool) (inner : TypeShape)
  | tuple (elems : List TypeShape)
  | other (text : String)

namespace TypeShape

mutual

/-- Equality of shapes is decidable. -/
def decEq : (a b : TypeShape) → Decidable (a = b)
  | .path s as, .path t bs =>
    if hs : s = t then
      match decEqList as bs with
      | isTrue h => isTrue (by rw [hs, h])
      | isFalse h => isFalse (by simp [h])
    else isFalse (by simp [hs])
  | .array a m, .array b n =>
    if hm : m = n then
      match decEq a b with
      | isTrue h => isTrue (by rw [hm, h])
      | isFalse h => isFalse (by simp [h])
    else isFalse (by simp [hm])
  | .slice a, .slice b =>
    match decEq a b with
    | isTrue h => isTrue (by rw [h])
    | isFalse h => isFalse (by simp [h])
  | .reference m a, .reference n b =>
    if hm : m = n then
      match decEq a b with
      | isTrue h => isTrue (by rw [hm, h])
      | isFalse h => isFalse (by simp [h])
    else isFalse (by simp [hm])
  | .tuple as, .tuple bs =>
    match decEqList as bs with
    | isTrue h => isTrue (by rw [h])
    | isFalse h => isFalse (by simp [h])
  | .other s, .other t => if h : s = t then isTrue (by rw [h]) else isFalse (by simp [h])
  | .path .., .array .. | .path .., .slice _ | .path .., .reference .. | .path .., .tuple _
  | .path .., .other _ | .array .., .path .. | .array .., .slice _ | .array .., .reference ..
  | .array .., .tuple _ | .array .., .other _ | .slice _, .path .. | .slice _, .array ..
  | .slice _, .reference .. | .slice _, .tuple _ | .slice _, .other _ | .reference .., .path ..
  | .reference .., .array .. | .reference .., .slice _ | .reference .., .tuple _
  | .reference .., .other _ | .tuple _, .path .. | .tuple _, .array .. | .tuple _, .slice _
  | .tuple _, .reference .. | .tuple _, .other _ | .other _, .path .. | .other _, .array ..
  | .other _, .slice _ | .other _, .reference .. | .other _, .tuple _ => isFalse (by simp)

/-- Equality of lists of shapes is decidable. -/
def decEqList : (as bs : List TypeShape) → Decidable (as = bs)
  | [], [] => isTrue rfl
  | [], _ :: _ => isFalse (by simp)
  | _ :: _, [] => isFalse (by simp)
  | a :: as, b :: bs =>
    match decEq a b, decEqList as bs with
    | isTrue h, isTrue hs => isTrue (by rw [h, hs])
    | isFalse h, _ => isFalse (by simp [h])
    | _, isFalse h => isFalse (by simp [h])

end

instance : DecidableEq TypeShape := decEq

mutual

/-- The written form of a shape. -/
def text : TypeShape → String
  | .path segments [] => "::".intercalate segments
  | .path segments (a :: args) =>
    "::".intercalate segments ++ "<" ++ ", ".intercalate (texts (a :: args)) ++ ">"
  | .array elem length => "[" ++ elem.text ++ "; " ++ length ++ "]"
  | .slice elem => "[" ++ elem.text ++ "]"
  | .reference true inner => "&mut " ++ inner.text
  | .reference false inner => "&" ++ inner.text
  | .tuple elems => "(" ++ ", ".intercalate (texts elems) ++ ")"
  | .other text => text

/-- The written forms of shapes. -/
def texts : List TypeShape → List String
  | [] => []
  | s :: rest => s.text :: texts rest

end

/-- The parts of a text between double colons. -/
def splitPath : List Char → List (List Char)
  | [] => [[]]
  | ':' :: ':' :: rest => [] :: splitPath rest
  | c :: rest =>
    match splitPath rest with
    | part :: parts => (c :: part) :: parts
    | [] => [[c]]

/-- The segments of a path text; blank ones are dropped. -/
def segmentsOf (path : String) : List String :=
  ((splitPath path.toList).map fun part => String.ofList (Text.trimChars part)).filter
    (fun s => !s.isEmpty)

/-- A path with type arguments. -/
def generic (path : String) (args : List TypeShape) : TypeShape := .path (segmentsOf path) args

/-- A path without arguments. -/
def named (path : String) : TypeShape := generic path []

/-- An array whose length is a number. -/
def arrayOf (elem : TypeShape) (length : Nat) : TypeShape := .array elem (Number.natText length)

/-- The last segment of a path. -/
def ident? : TypeShape → Option String
  | .path segments _ => segments.getLast?
  | _ => none

/-- The arguments of a path. -/
def args : TypeShape → List TypeShape
  | .path _ args => args
  | _ => []

/-- Whether the shape is a slice. -/
def isSlice : TypeShape → Bool
  | .slice _ => true
  | _ => false

/-- The type inside options: a path that ends in `Option` with one argument stands for it. -/
def unwrapOption : TypeShape → TypeShape
  | .path segments [inner] =>
    if segments.getLast? == some "Option" then inner.unwrapOption else .path segments [inner]
  | s => s

mutual

/-- The shape with every path reduced to its last segment. -/
def lastSegments : TypeShape → TypeShape
  | .path segments args => .path segments.getLast?.toList (lastSegmentsEach args)
  | .array elem length => .array elem.lastSegments length
  | .slice elem => .slice elem.lastSegments
  | .reference m inner => .reference m inner.lastSegments
  | .tuple elems => .tuple (lastSegmentsEach elems)
  | .other text => .other text

/-- The shapes with every path reduced to its last segment. -/
def lastSegmentsEach : List TypeShape → List TypeShape
  | [] => []
  | s :: rest => s.lastSegments :: lastSegmentsEach rest

end

end TypeShape

end TypedSheets
