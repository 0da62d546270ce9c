import TypedSheets.Code.Stream
import TypedSheets.Schema.Shape

/-!
# Rules of the grammar

The rules of types, expressions, patterns and items refer to each other. A rule is written over the
rules one level further down, so that each is a definition of its own; `Grammar` stacks the levels.

What is read is kept as tokens in normal form, with as much of the structure as later rules ask for.

* `PathSyntax`, `TypeSyntax`, `BoundSyntax`, `ExprSyntax`, `PatternSyntax` — what is read
* `BoundPlace` — where bounds stand
* `Rules` — the rules that the others are written over
-/

namespace TypedSheets.Code

/-- The arguments of one segment of a path. -/
structure ArgsSyntax where
  /-- Brackets stand there, perhaps with nothing in them. -/
  isGiven : Bool
  isEmpty : Bool
  /-- The arguments that are types. -/
  types : List TypeShape
  tokens : Tokens

/-- No arguments, and no brackets either. -/
def ArgsSyntax.absent : ArgsSyntax := ⟨false, true, [], []⟩

/-- A path as it was read. -/
structure PathSyntax where
  leading : Bool
  /-- A type in angle brackets stands in front. -/
  isQualified : Bool
  segments : List String
  /-- No segment has arguments. -/
  isPlain : Bool
  /-- The tokens without the arguments of the last segment. -/
  stem : Tokens
  last : ArgsSyntax

namespace PathSyntax

/-- The tokens of a path. -/
def tokens (p : PathSyntax) : Tokens := p.stem ++ p.last.tokens

/-- The path with one more segment. -/
def push (p : PathSyntax) (colons : Tokens) (name : Token) (args : ArgsSyntax) : PathSyntax :=
  { p with
    segments := p.segments ++ [name.text]
    isPlain := p.isPlain && !args.isGiven
    stem := p.tokens ++ colons ++ [name]
    last := args }

/-- Whether a path may be the name of an associated type: one segment. -/
def isAssociated (p : PathSyntax) : Bool :=
  !p.leading && !p.isQualified && p.segments.length == 1

end PathSyntax

/-- The forms of types that later rules tell apart. -/
inductive TypeForm where
  /-- A path without a type in front. -/
  | path (p : PathSyntax)
  /-- One bound, with its tokens without parentheses. -/
  | bound (tokens : Tokens)
  | other

/-- A type as it was read. -/
structure TypeSyntax where
  shape : TypeShape
  tokens : Tokens
  form : TypeForm

/-- A type outside the known shapes. -/
def TypeSyntax.other (tokens : Tokens) : TypeSyntax :=
  ⟨.other (Token.textOf tokens), tokens, .other⟩

/-- A bound as it was read. -/
structure BoundSyntax where
  /-- It names a trait, and is no lifetime. -/
  isTrait : Bool
  tokens : Tokens

/-- Where bounds stand. -/
inductive BoundPlace where
  /-- In the type of an object: traits and lifetimes. -/
  | object
  /-- In an anonymous type: also what is captured, and constant traits. -/
  | anonymous
  /-- On a parameter: also constant traits. -/
  | parameter
  deriving DecidableEq

/-- The forms of expressions that later rules tell apart. -/
inductive ExprForm where
  /-- It ends with a block, so that a statement of it needs no semicolon. -/
  | block
  /-- A macro call with braces. -/
  | bracedCall
  | range
  | comparison
  /-- It is kept as it was written. -/
  | verbatim
  | plain
  deriving DecidableEq

/-- An expression as it was read. -/
structure ExprSyntax where
  form : ExprForm
  /-- The operand in front is kept as it was written and takes no attributes. -/
  dropsAttributes : Bool
  tokens : Tokens

namespace ExprSyntax

/-- An expression of no particular form. -/
def plain (tokens : Tokens) : ExprSyntax := ⟨.plain, false, tokens⟩

/-- An expression of a form. -/
def of (form : ExprForm) (tokens : Tokens) : ExprSyntax := ⟨form, form = .verbatim, tokens⟩

/-- The expression with attributes in front, where it takes any. -/
def withAttributes (e : ExprSyntax) (attributes : Tokens) : ExprSyntax :=
  if e.dropsAttributes then e else { e with tokens := attributes ++ e.tokens }

/-- Whether a statement of the expression needs a semicolon. -/
def needsSemicolon (e : ExprSyntax) : Bool := e.form ≠ .block && e.form ≠ .bracedCall

end ExprSyntax

/-- The forms of patterns that later rules tell apart. -/
inductive PatternForm where
  /-- A range without one of its ends. -/
  | openRange
  /-- It is kept as it was written. -/
  | verbatim
  | plain
  deriving DecidableEq

/-- A pattern as it was read. -/
structure PatternSyntax where
  form : PatternForm
  tokens : Tokens

/-- The rules that the others are written over. -/
structure Rules where
  /-- A type. Only some places allow bounds with plus signs. -/
  type : (allowPlus : Bool) → Reader TypeSyntax
  bound : BoundPlace → Reader BoundSyntax
  /-- An expression. Only some places allow the literal of a structure. -/
  expr : (allowStruct : Bool) → Reader ExprSyntax
  /-- An expression without operators between operands. -/
  operand : (allowStruct : Bool) → Reader ExprSyntax
  /-- An expression that is complete where it ends with a block. -/
  bounded : Reader ExprSyntax
  /-- A pattern without alternatives. -/
  pattern : Reader PatternSyntax
  /-- The statements of a block, up to its end. -/
  statements : Reader Tokens
  /-- Fields with names, up to the end of their braces. -/
  fields : Reader Tokens
  /-- An item with its attributes. -/
  item : Reader Tokens

/-- No rule takes anything. -/
def Rules.silent : Rules where
  type _ := failure
  bound _ := failure
  expr _ := failure
  operand _ := failure
  bounded := failure
  pattern := failure
  statements := failure
  fields := failure
  item := failure

end TypedSheets.Code
