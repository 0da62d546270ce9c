import TypedSheets.Code.Pattern
import TypedSheets.Code.TypeSyntax

/-!
# Signatures of functions

* `startsSignatureWords` — whether a function starts here
* `Rules.signature` — what stands in front of the body of a function
-/

namespace TypedSheets.Code

open Reader

/-- The argument of a function as it was read. -/
structure ArgumentSyntax where
  isReceiver : Bool
  /-- It stands for any number of arguments, and is the last one. -/
  isRest : Bool
  tokens : Tokens

namespace Rules

/-- The receiver of a method. -/
def receiver (g : Rules) : Reader Tokens := do
  if ← seesOp "&" then
    return (← op "&") ++ (← whenSees startsLifetime Reader.lifetime) ++ (← optionalWord "mut") ++
      (← word "self")
  else
    return (← optionalWord "mut") ++ (← word "self") ++ (← whenSees (startsOp ":") do
      return (← op ":") ++ (← g.type true).tokens)

/-- An argument with its pattern and type. A type that starts with a name and arguments may stand
alone. -/
def typedArgument (g : Rules) : Reader ArgumentSyntax := do
  if ← sees fun ts => startsName ts && startsOp "<" (ts.drop 1) then
    return ⟨false, false, [.name "_"] ++ operator ":" ++ (← g.type true).tokens⟩
  else
    let label := (← g.pattern).tokens ++ (← op ":")
    if ← seesOp "..." then return ⟨false, true, label ++ (← op "...")⟩
    else return ⟨false, false, label ++ (← g.type true).tokens⟩

/-- The argument of a function. -/
def argument (g : Rules) : Reader ArgumentSyntax := do
  let attributes ← g.outer
  let a ←
    if ← seesOp "..." then ArgumentSyntax.mk false true <$> op "..."
    else (ArgumentSyntax.mk true false <$> g.receiver) <|> g.typedArgument
  return { a with tokens := attributes ++ a.tokens }

/-- The arguments of a function, up to the end. Only the first may be a receiver. -/
def arguments (g : Rules) : Reader Tokens := do
  let (tokens, _) ← iterate (fun (done, isFirst) => do
    if ← atEnd then return none
    let a ← g.argument
    if a.isReceiver && !isFirst then failure
    let comma ← if ← atEnd then pure [] else op ","
    if a.isRest && !(← atEnd) then failure
    return some (done ++ a.tokens ++ comma, false)) ([], true)
  return tokens

/-- The words in front of the name of a function. Where the surroundings are unsafe, one may be
marked as safe. -/
def signatureWords (allowSafe : Bool) : Reader Tokens := do
  let kind := (← optionalWord "const") ++ (← optionalWord "async")
  let safety ← if allowSafe && (← seesWord "safe") then word "safe" else optionalWord "unsafe"
  return kind ++ safety ++ (← convention) ++ (← word "fn")

/-- What stands in front of the body of a function. -/
def signature (g : Rules) (allowSafe : Bool) : Reader Tokens := do
  let start := (← signatureWords allowSafe) ++ (← name)
  let ps ← g.parameters
  let args ← grouped .paren g.arguments
  let result ← g.result true
  return start ++ ps.tokens ++ args ++ result ++ (← g.whereClause).2

end Rules

/-- Whether a function starts here. -/
def startsSignatureWords (allowSafe : Bool) (ts : Tokens) : Bool :=
  ((Rules.signatureWords allowSafe).run ts).isSome

end TypedSheets.Code
