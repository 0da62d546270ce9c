import TypedSheets.Code.Token

/-!
# Token streams

Small readers over tokens. A reader takes tokens from the front and gives what it took in normal
form: an operator that was read as one is written as one, whatever stood next to it.

* `startsOp`, `startsWord`, `startsName`, … — what stands in front
* `Reader` — takes tokens from the front, or fails
* `Reader.op`, `Reader.word`, `Reader.token` — single tokens and operators
* `Reader.inGroup`, `Reader.grouped` — what stands in brackets
* `Reader.iterate`, `Reader.separated`, `Reader.joined` — repetition
* `Reader.written` — tokens as they were written
-/

namespace TypedSheets.Code

/-- Whether the tokens start with the characters of an operator. -/
def startsOpChars : List Char → Tokens → Bool
  | [], _ => true
  | [c], .punct d _ :: _ => c == d
  | c :: cs, .punct d true :: rest => c == d && startsOpChars cs rest
  | _, _ => false

/-- Whether the tokens start with an operator; a longer one may stand there. -/
def startsOp (op : String) (ts : Tokens) : Bool := startsOpChars op.toList ts

/-- Whether the tokens start with that word, not raw. -/
def startsWord (word : String) : Tokens → Bool
  | .ident n false :: _ => n == word
  | _ => false

/-- Whether the tokens start with one of these words. -/
def startsAnyWord (words : List String) (ts : Tokens) : Bool := words.any (startsWord · ts)

/-- Whether a token is a name that is no keyword. -/
def isName : Token → Bool
  | .ident n raw => raw || !isKeyword n
  | _ => false

/-- Whether a token is a name or any keyword. -/
def isAnyName : Token → Bool
  | .ident _ _ => true
  | _ => false

/-- Whether the tokens start with a name that is no keyword. -/
def startsName (ts : Tokens) : Bool := ts.head?.any isName

/-- Whether the tokens start with a name or keyword. -/
def startsAnyName (ts : Tokens) : Bool := ts.head?.any isAnyName

/-- Whether the tokens start with a lifetime. -/
def startsLifetime : Tokens → Bool
  | .lifetime _ :: _ => true
  | _ => false

/-- Whether the tokens start with a group of a kind. -/
def startsGroup (d : Delimiter) : Tokens → Bool
  | .group d' _ :: _ => d = d'
  | _ => false

/-- Whether the tokens start with a literal, truth values included. -/
def startsLiteral : Tokens → Bool
  | .literal _ :: _ => true
  | .ident n false :: _ => n == "true" || n == "false"
  | _ => false

/-- Whether the tokens start with a minus sign and a number. -/
def startsNegative : Tokens → Bool
  | .punct '-' _ :: .literal s :: _ => s.toList.head?.any Char.isDigit
  | _ => false

/-- Whether the tokens start with a literal that may have a sign. -/
def startsSignedLiteral (ts : Tokens) : Bool := startsLiteral ts || startsNegative ts

/-- Whether a text is a literal of plain text. -/
def isTextLiteral (s : String) : Bool := s.toList.head?.any fun c => c == '"' || c == 'r'

/-- Whether the last token is a group in braces. -/
def endsWithBrace (ts : Tokens) : Bool :=
  match ts.getLast? with
  | some (.group .brace _) => true
  | _ => false

/-- Takes tokens from the front, or fails. -/
abbrev Reader := StateT Tokens Option

namespace Reader

/-- Whether the tokens look so. -/
def sees (p : Tokens → Bool) : Reader Bool := do return p (← get)

/-- Whether an operator is in front. -/
def seesOp (op : String) : Reader Bool := sees (startsOp op)

/-- Whether a word is in front. -/
def seesWord (word : String) : Reader Bool := sees (startsWord word)

/-- Whether a group of a kind is in front. -/
def seesGroup (d : Delimiter) : Reader Bool := sees (startsGroup d)

/-- Whether nothing is left. -/
def atEnd : Reader Bool := sees List.isEmpty

/-- Takes an operator. -/
def op (s : String) : Reader Tokens := do
  let ts ← get
  if startsOp s ts then
    set (ts.drop s.length)
    return operator s
  else failure

/-- Takes a token of a class. -/
def token (p : Token → Bool) : Reader Token := do
  match ← get with
  | t :: rest =>
    if p t then
      set rest
      return t
    else failure
  | [] => failure

/-- Takes a word. -/
def word (s : String) : Reader Tokens := do
  return [← token fun t => startsWord s [t]]

/-- Takes a name that is no keyword. -/
def name : Reader Tokens := do return [← token isName]

/-- Takes a name or the underscore. -/
def nameOrGap : Reader Tokens := do
  return [← token fun t => isName t || startsWord "_" [t]]

/-- Takes a lifetime. -/
def lifetime : Reader Tokens := do return [← token fun t => startsLifetime [t]]

/-- Takes a group of any kind as it is written. -/
def anyGroup : Reader Tokens := do
  return [← token fun t => match t with | .group _ _ => true | _ => false]

/-- Takes a literal. A number may have a minus sign, which is a token of its own. -/
def signedLiteral : Reader Tokens := do
  if ← sees startsNegative then
    let sign ← op "-"
    return sign ++ [← token fun t => startsLiteral [t]]
  else return [← token fun t => startsLiteral [t]]

/-- Reads on only if the tokens look so. -/
def whenSees (p : Tokens → Bool) (read : Reader Tokens) : Reader Tokens := do
  if ← sees p then read else return []

/-- Takes an operator if it is there. -/
def optionalOp (s : String) : Reader Tokens := whenSees (startsOp s) (op s)

/-- Takes a word if it is there. -/
def optionalWord (s : String) : Reader Tokens := whenSees (startsWord s) (word s)

/-- Reads all that stands in a group. -/
def inGroup {α : Type} (d : Delimiter) (read : Reader α) : Reader α := do
  match ← get with
  | .group d' inner :: rest =>
    match decide (d = d'), read.run inner with
    | true, some (x, []) =>
      set rest
      return x
    | _, _ => failure
  | _ => failure

/-- Reads all that stands in a group, and gives the group. -/
def grouped (d : Delimiter) (read : Reader Tokens) : Reader Tokens := do
  return [.group d (← inGroup d read)]

/-- The tokens taken since others were in front. -/
def since (start : Tokens) : Reader Tokens := do
  return start.take (start.length - (← get).length)

/-- What a reader takes, as it is written. -/
def written {α : Type} (read : Reader α) : Reader Tokens := do
  let start ← get
  let _ ← read
  since start

/-- Takes a step after another, in at most `fuel` steps, until there is none. -/
def iterateWithin {α : Type} (step : α → Reader (Option α)) : (fuel : Nat) → α → Reader α
  | 0, _ => failure
  | fuel + 1, a => do
    match ← step a with
    | some b => iterateWithin step fuel b
    | none => return a

/-- Takes a step after another until there is none. Every step has to take a token. -/
def iterate {α : Type} (step : α → Reader (Option α)) (a : α) : Reader α := do
  iterateWithin step ((← get).length + 1) a

/-- Reads again and again while the tokens look so. -/
def whileSees (p : Tokens → Bool) (read : Reader Tokens) : Reader Tokens :=
  iterate (fun done => do
    if ← sees p then return some (done ++ (← read)) else return none) []

/-- Readings with a mark between any two, in at most `fuel` steps. -/
def separatedWithin {α : Type} (mark : String) (isStop : Tokens → Bool) (read : Reader α) :
    (fuel : Nat) → Reader (List (α × Tokens))
  | 0 => failure
  | fuel + 1 => do
    if ← sees isStop then return []
    let x ← read
    if ← sees isStop then return [(x, [])]
    let between ← op mark
    return (x, between) :: (← separatedWithin mark isStop read fuel)

/-- Readings up to where the tokens look so, with a mark between any two and perhaps behind the
last; each with the mark behind it. -/
def separated {α : Type} (mark : String) (isStop : Tokens → Bool) (read : Reader α) :
    Reader (List (α × Tokens)) := do
  separatedWithin mark isStop read ((← get).length + 1)

/-- Readings as long as a mark follows, in at most `fuel` steps. -/
def joinedWithin {α : Type} (mark : String) (isStop : Tokens → Bool) (read : Reader α) :
    (fuel : Nat) → Reader (List (α × Tokens))
  | 0 => failure
  | fuel + 1 => do
    if ← sees isStop then return []
    let x ← read
    if ← seesOp mark then
      let between ← op mark
      return (x, between) :: (← joinedWithin mark isStop read fuel)
    else return [(x, [])]

/-- Readings as long as a mark follows and the tokens do not look so; each with the mark behind
it. -/
def joined {α : Type} (mark : String) (isStop : Tokens → Bool) (read : Reader α) :
    Reader (List (α × Tokens)) := do
  joinedWithin mark isStop read ((← get).length + 1)

/-- Readings and the marks between them in one sequence. -/
def sequence (xs : List (Tokens × Tokens)) : Tokens := xs.flatMap fun x => x.1 ++ x.2

/-- Readings up to the end with commas between them. -/
def commaList (read : Reader Tokens) : Reader Tokens := do
  return sequence (← separated "," List.isEmpty read)

/-- What a reader makes of all the tokens. -/
def whole? {α : Type} (read : Reader α) (ts : Tokens) : Option α :=
  match read.run ts with
  | some (x, []) => some x
  | _ => none

end Reader

end TypedSheets.Code
