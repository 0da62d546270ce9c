import TypedSheets.Code.Pattern
import TypedSheets.Code.TypeSyntax

/-!
# Operators in expressions

Operators between operands bind by precedence; comparisons do not chain, and a range is no operand
of a further operator. Calls, members, indexes and question marks stand behind an operand.

* `Precedence` — how tightly an operator binds
* `Rules.climb` — operators behind an operand
* `Rules.trailers` — what stands behind an operand without an operator
-/

namespace TypedSheets.Code

open Reader

/-- How tightly an operator binds. -/
inductive Precedence where
  /-- No operator. -/
  | least
  | assign
  | range
  | or
  | and
  | compare
  | bitOr
  | bitXor
  | bitAnd
  | shift
  | sum
  | product
  | cast
  deriving DecidableEq

/-- The place of a precedence among all: the greater one binds tighter. -/
def Precedence.rank : Precedence → Nat
  | .least => 0
  | .assign => 1
  | .range => 2
  | .or => 3
  | .and => 4
  | .compare => 5
  | .bitOr => 6
  | .bitXor => 7
  | .bitAnd => 8
  | .shift => 9
  | .sum => 10
  | .product => 11
  | .cast => 12

/-- The operators between two values, longer ones first. -/
def binaryOps : List (String × Precedence) :=
  [("<<=", .assign), (">>=", .assign), ("+=", .assign), ("-=", .assign), ("*=", .assign),
    ("/=", .assign), ("%=", .assign), ("^=", .assign), ("&=", .assign), ("|=", .assign),
    ("&&", .and), ("||", .or), ("<<", .shift), (">>", .shift), ("==", .compare), ("<=", .compare),
    ("!=", .compare), (">=", .compare), ("+", .sum), ("-", .sum), ("*", .product),
    ("/", .product), ("%", .product), ("^", .bitXor), ("&", .bitAnd), ("|", .bitOr),
    ("<", .compare), (">", .compare)]

/-- The operator between two values in front, with its precedence. -/
def binaryOp? (ts : Tokens) : Option (String × Precedence) :=
  binaryOps.find? fun o => startsOp o.1 ts

/-- Whether an assignment is in front. -/
def startsAssign (ts : Tokens) : Bool := startsOp "=" ts && !startsOp "=>" ts

/-- The precedence of what follows an operand. -/
def precedenceOf (ts : Tokens) : Precedence :=
  match binaryOp? ts with
  | some (_, p) => p
  | none =>
    if startsAssign ts then .assign
    else if startsOp ".." ts then .range
    else if startsWord "as" ts then .cast
    else .least

/-- The operators that end a range without an end. -/
def rangeStops : List String :=
  [",", ";", "?", "=>", "=", "+", "/", "%", "^", ">", "<=", "!=", "-=", "*=", "&=", "|=", "<<="]

/-- Whether a range is left open here. -/
def endsRange (allowStruct : Bool) (ts : Tokens) : Bool :=
  ts.isEmpty || rangeStops.any (startsOp · ts) || (startsOp "." ts && !startsOp ".." ts) ||
    (!allowStruct && startsGroup .brace ts) || startsWord "as" ts

/-- Whether something stands behind an operand that no cast may have behind it. -/
def endsCast (ts : Tokens) : Bool :=
  !((startsOp "." ts && !startsOp ".." ts) || startsOp "?" ts || startsGroup .bracket ts ||
    startsGroup .paren ts)

/-- Whether a member is in front. -/
def startsMember (ts : Tokens) : Bool := startsOp "." ts && !startsOp ".." ts

/-- The parts of a number between its points, and whether a point stands behind the last. -/
def splitPoints : List Char → List Char → List (List Char) × Bool
  | part, [] => ([part.reverse], false)
  | part, ['.'] => ([part.reverse], true)
  | part, '.' :: rest => (part.reverse :: (splitPoints [] rest).1, (splitPoints [] rest).2)
  | part, c :: rest => splitPoints (c :: part) rest

/-- The tokens of members given by their indexes, which a point divides; also whether a point stands
behind the last. -/
def indexMembers? (s : String) : Option (Tokens × Bool) :=
  let (parts, isOpen) := splitPoints [] s.toList
  let index (part : List Char) : Option Token :=
    (Lexer.indexValue? part).map fun n => .literal (Number.natText n)
  (parts.mapM index).map fun ts =>
    ((ts.intersperse (.mark '.')) ++ (if isOpen then [.mark '.'] else []), isOpen)

/-- Whether a token is a number with a point in it. -/
def isPointed : Token → Bool
  | .literal s => s.toList.head?.any Char.isDigit && s.toList.contains '.'
  | _ => false

namespace Rules

/-- Expressions with commas between them, up to the end. -/
def exprList (g : Rules) : Reader Tokens := commaList (ExprSyntax.tokens <$> g.expr true)

/-- A named member behind its dot, or the call of a method. -/
def namedMember (g : Rules) : Reader Tokens := do
  if ← seesWord "await" then word "await"
  else
    let isNamed ← sees startsName
    let member ← memberName
    let args ← if isNamed && (← seesOp "::") then ArgsSyntax.tokens <$> g.angleArgs else pure []
    if !args.isEmpty || (isNamed && (← seesGroup .paren)) then
      return member ++ args ++ (← grouped .paren g.exprList)
    else return member

/-- A member behind its dot. Two indexes with a point between them are read as one number. -/
def member (g : Rules) : Reader Tokens := do
  match ← get with
  | .literal s :: rest =>
    if isPointed (.literal s) then
      match indexMembers? s with
      | some (ts, isOpen) =>
        set rest
        if isOpen then return ts ++ (← g.namedMember) else return ts
      | none => failure
    else g.namedMember
  | _ => g.namedMember

/-- What stands behind an operand without an operator: calls, members, indexes, question marks. -/
def trailers (g : Rules) : ExprSyntax → Reader ExprSyntax :=
  iterate fun e => do
    if ← seesGroup .paren then
      return some (.plain (e.tokens ++ (← grouped .paren g.exprList)))
    else if e.form ≠ .range && (← sees startsMember) then
      return some (.plain (e.tokens ++ (← op ".") ++ (← g.member)))
    else if ← seesGroup .bracket then
      let index ← grouped .bracket (ExprSyntax.tokens <$> g.expr true)
      return some (.plain (e.tokens ++ index))
    else if e.form ≠ .range && (← seesOp "?") then
      return some (.plain (e.tokens ++ (← op "?")))
    else return none

mutual

/-- Operators behind an operand, as far as they bind as tightly as `base`. -/
def climbWithin (g : Rules) (allowStruct : Bool) :
    (fuel : Nat) → (base : Precedence) → ExprSyntax → Reader ExprSyntax
  | 0, _, _ => failure
  | fuel + 1, base, left => do
    if left.form = .range then return left
    match binaryOp? (← get) with
    | some (mark, p) =>
      if p.rank < base.rank then return left
      if p = .compare && left.form = .comparison then failure
      let between ← op mark
      let right ← rightWithin g allowStruct fuel p
      climbWithin g allowStruct fuel base
        { left with
          form := if p = .compare then .comparison else .plain
          tokens := left.tokens ++ between ++ right }
    | none =>
      if base.rank ≤ Precedence.assign.rank && (← sees startsAssign) then
        let between ← op "="
        let right ← rightWithin g allowStruct fuel .assign
        climbWithin g allowStruct fuel base
          { left with form := .plain, tokens := left.tokens ++ between ++ right }
      else if base.rank ≤ Precedence.range.rank && (← seesOp "..") then
        let dots ← rangeDots
        let isOpen ← sees (endsRange allowStruct)
        let right ←
          if isOpen && !dots.isClosed then pure [] else rightWithin g allowStruct fuel .range
        return .of .range (left.tokens ++ dots.tokens ++ right)
      else if ← seesWord "as" then
        let between ← word "as"
        let t ← g.type false
        if ← sees endsCast then
          climbWithin g allowStruct fuel base
            { left with form := .plain, tokens := left.tokens ++ between ++ t.tokens }
        else failure
      else return left

/-- The right operand of an operator, with the tighter operators behind it. -/
def rightWithin (g : Rules) (allowStruct : Bool) : (fuel : Nat) → Precedence → Reader Tokens
  | 0, _ => failure
  | fuel + 1, p => do
    let first ← g.operand allowStruct
    tightenWithin g allowStruct fuel p first

/-- An operand with the operators behind it that bind tighter than `p`; assignments bind to the
right. -/
def tightenWithin (g : Rules) (allowStruct : Bool) :
    (fuel : Nat) → Precedence → ExprSyntax → Reader Tokens
  | 0, _, _ => failure
  | fuel + 1, p, right => do
    let start ← get
    let next := precedenceOf start
    if p.rank < next.rank || (next = .assign && p = .assign) then
      let wider ← climbWithin g allowStruct fuel next right
      if (← get).length == start.length then return wider.tokens
      else tightenWithin g allowStruct fuel p wider
    else return right.tokens

end

/-- Operators behind an operand, as far as they bind as tightly as `base`. -/
def climb (g : Rules) (allowStruct : Bool) (base : Precedence) (left : ExprSyntax) :
    Reader ExprSyntax := do
  climbWithin g allowStruct (4 * (← get).length + 4) base left

/-- A range without a start. -/
def startlessRange (g : Rules) (allowStruct : Bool) : Reader ExprSyntax := do
  let dots ← rangeDots
  let isOpen ← sees (endsRange allowStruct)
  let right ← if isOpen && !dots.isClosed then pure []
    else rightWithin g allowStruct (4 * (← get).length + 4) .range
  return .of .range (dots.tokens ++ right)

end Rules

end TypedSheets.Code
