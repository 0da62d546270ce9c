/-!
# Stacks

A stack is the list of its items from bottom to top, so that a cell shows what was pushed in order.

* `Stack.push`, `Stack.pop?`, `Stack.peek?`
-/

namespace TypedSheets

/-- The items of a stack from bottom to top. -/
abbrev Stack (α : Type) := List α

namespace Stack

variable {α : Type}

/-- The stack with another item on top. -/
def push (s : Stack α) (x : α) : Stack α := s ++ [x]

/-- The top item. -/
def peek? (s : Stack α) : Option α := s.getLast?

/-- The top item and the stack without it. -/
def pop? (s : Stack α) : Option (α × Stack α) := s.getLast?.map fun x => (x, s.dropLast)

@[simp] theorem pop?_push (s : Stack α) (x : α) : (s.push x).pop? = some (x, s) := by
  simp [push, pop?]

@[simp] theorem peek?_push (s : Stack α) (x : α) : (s.push x).peek? = some x := by
  simp [push, peek?]

end Stack

end TypedSheets
