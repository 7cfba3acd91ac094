import Covenant.Condition.Comparison

/-!
# Evaluating conditions

Groups are evaluated from left to right and only as far as needed; a group
without conditions holds.  What is nested deeper than the limit is false.
-/

namespace Covenant.Condition

def levelsWithin (maxDepth : Int) : Nat := (maxDepth + 1).toNat

/-- Joins the conditions of a group in the order given. -/
def joinGroup {m : Type → Type} [Monad m] {α : Type} (operator : Text) (evaluate : α → m Bool)
    (children : List α) : m Bool :=
  if isGroupOperator operator then
    if children.isEmpty then pure true
    else if operator = "AND" then children.allM evaluate
    else children.anyM evaluate
  else pure false

/-- Evaluates a condition that may have the given number of levels. -/
def evaluateWithin (context : ContextMap) : Nat → Condition → Outcome Bool
  | 0, _ => .ok false
  | _ + 1, .comparison leaf => leaf.evaluate context
  | levels + 1, .group operator children =>
      joinGroup (Text.upper operator) (evaluateWithin context levels) children

/-- Evaluates a stored condition; what is no condition is false. -/
def evaluate (maxDepth : Int) (context : ContextMap) (stored : Value) : Outcome Bool :=
  match ofValue stored with
  | .ok condition => evaluateWithin context (levelsWithin maxDepth) condition
  | .error _ => .ok false

end Covenant.Condition
