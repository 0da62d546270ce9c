import TypedSheets.Code.Lexer
import TypedSheets.Code.NestedItem

/-!
# The grammar

The rules stacked level upon level, and what they make of a text. A text of some length nests only
so deep, so that many levels are enough.

* `Rules.next`, `rules` — a level over another, and so many levels
* `typeSyntax?` — the type that a text is
* `TypeShape.parse?` — its shape
* `typeTokens?` — its tokens
* `item?` — the declaration of a type that a text is
-/

namespace TypedSheets.Code

/-- The rules over those of one level further down. -/
def Rules.next (g : Rules) : Rules where
  type := g.nextType
  bound := g.nextBound
  expr := g.nextExpr
  operand := g.nextOperand
  bounded := g.nextBounded
  pattern := g.nextPattern
  statements := g.nextStatements
  fields := g.nextFields
  item := g.nextItem

/-- The rules with so many levels. -/
def rules : Nat → Rules
  | 0 => .silent
  | depth + 1 => (rules depth).next

/-- The rules with as many levels as a text can need: from one bracket, sign or keyword to the next
there are at most four. -/
def rulesFor (text : String) : Rules := rules (4 * text.length + 4)

/-- The type that a text is. -/
def typeSyntax? (text : String) : Option TypeSyntax :=
  (tokenize? text).bind (Reader.whole? ((rulesFor text).type true))

/-- The tokens of the type that a text is. -/
def typeTokens? (text : String) : Option Tokens := (typeSyntax? text).map TypeSyntax.tokens

/-- The declaration of a type that a text is. -/
def item? (text : String) : Option Item :=
  (tokenize? text).bind (Reader.whole? (rulesFor text).dataItem)

end TypedSheets.Code

/-- The shape of the type that a text is. -/
def TypedSheets.TypeShape.parse? (text : String) : Option TypedSheets.TypeShape :=
  (TypedSheets.Code.typeSyntax? text).map TypedSheets.Code.TypeSyntax.shape
