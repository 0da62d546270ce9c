import TypedSheets.Settings.Toml.Scalar
import TypedSheets.Settings.Toml.Tree
import TypedSheets.Text.Basic

/-!
# TOML documents

A document is a sequence of lines: headers of tables, keys with values, and comments. Lists and
tables in braces may go over several lines; how deep they nest is limited, and so is the number of
parts of a key.

* `Toml.value?` — a value
* `Toml.Statement` — a line that says something
* `Toml.parse?` — the settings of a whole document
-/

namespace TypedSheets.Toml

/-- The text without blanks in front. -/
def skipBlanks (s : List Char) : List Char := s.dropWhile isBlank

/-- The text from the end of a line on, behind the mark of a comment. -/
def comment? (s : List Char) : Option (List Char) :=
  let line := s.takeWhile (· != '\n')
  let rest := s.dropWhile (· != '\n')
  let line := if line.getLast? == some '\r' && !rest.isEmpty then line.dropLast else line
  if line.all isPlain then some rest else none

/-- The text from the next line on; only a comment may stand before its end. -/
def endOfLine? (s : List Char) : Option (List Char) :=
  let atEnd : List Char → Option (List Char)
    | [] => some []
    | s => lineEnd? s
  match skipBlanks s with
  | '#' :: rest => (comment? rest).bind fun r => atEnd (if r.isEmpty then [] else r)
  | s => atEnd s

/-- The text without white space, line ends and comments in front. -/
def skipLines? : (fuel : Nat) → List Char → Option (List Char)
  | 0, s => some s
  | fuel + 1, s =>
    match skipBlanks s with
    | '#' :: rest => (comment? rest).bind (skipLines? fuel)
    | s =>
      match lineEnd? s with
      | some rest => skipLines? fuel rest
      | none => some s

/-- Whether a character may be part of a key without quotes. -/
def isBareChar (c : Char) : Bool := c.isAlphanum || c == '_' || c == '-'

/-- One part of a key. -/
def keyPart? (s : List Char) : Option (String × List Char) :=
  match lineString? s with
  | some (part, rest) => some (String.ofList part, rest)
  | none =>
    let part := s.takeWhile isBareChar
    if part.isEmpty then none else some (String.ofList part, s.dropWhile isBareChar)

/-- How many lists and tables in braces may stand around a value. -/
def depthLimit : Nat := 80

/-- How many parts a key may have before its last one. -/
def keyLimit : Nat := 80

/-- A key of at most `limit + 1` parts with dots between them. -/
def keyWithin? : (limit : Nat) → List Char → Option (List String × List Char)
  | limit, s =>
    match keyPart? (skipBlanks s) with
    | none => none
    | some (part, rest) =>
      match limit, skipBlanks rest with
      | limit + 1, '.' :: rest =>
        (keyWithin? limit rest).map fun (parts, r) => (part :: parts, r)
      | 0, '.' :: _ => none
      | _, rest => some ([part], rest)

/-- A key: parts with dots between them. -/
def key? (s : List Char) : Option (List String × List Char) := keyWithin? keyLimit s

/-- A key and the text behind its equals sign. -/
def keyEquals? (s : List Char) : Option (List String × List Char) :=
  match key? s with
  | some (key, '=' :: rest) => some (key, rest)
  | _ => none

mutual

/-- A value with at most `depth` lists and tables around another one in it. -/
def value? : (fuel depth : Nat) → List Char → Option (Setting × List Char)
  | 0, _, _ => none
  | fuel + 1, depth, s =>
    match depth, skipBlanks s with
    | depth + 1, '[' :: rest =>
      (items? fuel depth rest).map fun (items, r) => (.list items, r)
    | depth + 1, '{' :: rest =>
      (members? fuel depth [] rest).map fun (b, r) => (.table (Branch.settings b), r)
    | _, '"' :: rest => (string? ('"' :: rest)).map fun (cs, r) => (.text (String.ofList cs), r)
    | _, '\'' :: rest => (string? ('\'' :: rest)).map fun (cs, r) => (.text (String.ofList cs), r)
    | _, rest => word? rest

/-- The items of a list up to and with its closing bracket. -/
def items? : (fuel depth : Nat) → List Char → Option (List Setting × List Char)
  | 0, _, _ => none
  | fuel + 1, depth, s =>
    match skipLines? (s.length + 1) s with
    | none => none
    | some (']' :: rest) => some ([], rest)
    | some rest =>
      match value? fuel depth rest with
      | none => none
      | some (item, rest) =>
        match skipLines? (rest.length + 1) rest with
        | some (',' :: rest) => (items? fuel depth rest).map fun (items, r) => (item :: items, r)
        | some (']' :: rest) => some ([item], rest)
        | _ => none

/-- The members of a table in braces up to and with its closing brace. -/
def members? : (fuel depth : Nat) → Branch → List Char → Option (Branch × List Char)
  | 0, _, _, _ => none
  | fuel + 1, depth, b, s =>
    match skipLines? (s.length + 1) s with
    | none => none
    | some ('}' :: rest) => some (b, rest)
    | some rest =>
      match key? rest with
      | none => none
      | some (key, rest) =>
        match skipLines? (rest.length + 1) rest with
        | some ('=' :: rest) =>
          match (skipLines? (rest.length + 1) rest).bind (value? fuel depth) with
          | none => none
          | some (v, rest) =>
            match Branch.assign? key v b, skipLines? (rest.length + 1) rest with
            | some b, some (',' :: rest) => members? fuel depth b rest
            | some b, some ('}' :: rest) => some (b, rest)
            | _, _ => none
        | _ => none

end

/-- A line that says something. -/
inductive Statement where
  | table (header : List String)
  | item (header : List String)
  | assign (key : List String) (v : Setting)

/-- A statement and the text behind its line. -/
def statement? (s : List Char) : Option (Statement × List Char) :=
  let ended (st : Statement) (rest : List Char) : Option (Statement × List Char) :=
    (endOfLine? rest).map fun r => (st, r)
  match s with
  | '[' :: '[' :: rest =>
    match key? rest with
    | some (header, ']' :: ']' :: rest) => ended (.item header) rest
    | _ => none
  | '[' :: rest =>
    match key? rest with
    | some (header, ']' :: rest) => ended (.table header) rest
    | _ => none
  | s =>
    match keyEquals? s with
    | none => none
    | some (key, rest) =>
      match value? (rest.length + 2) depthLimit rest with
      | some (v, rest) => ended (.assign key v) rest
      | none => none

/-- The header in force after a statement and the tree with what it says. -/
def Statement.apply? (header : List String) (b : Branch) :
    Statement → Option (List String × Branch)
  | .table header => (Branch.openTable? header b).map fun b => (header, b)
  | .item header => (Branch.openItem? header b).map fun b => (header, b)
  | .assign key v => (Branch.assignUnder? header key v b).map fun b => (header, b)

/-- The tree of the rest of a document. -/
def document? : (fuel : Nat) → (header : List String) → Branch → List Char → Option Branch
  | 0, _, _, _ => none
  | fuel + 1, header, b, s =>
    match skipLines? (s.length + 1) s with
    | none => none
    | some [] => some b
    | some rest =>
      match statement? rest with
      | none => none
      | some (st, rest) =>
        match st.apply? header b with
        | some (header, b) => document? fuel header b rest
        | none => none

/-- The settings of a whole document. -/
def parse? (text : String) : Option Setting :=
  let s := Text.dropMark text.toList
  (document? (s.length + 1) [] [] s).map fun b => .table (Branch.settings b)

end TypedSheets.Toml
