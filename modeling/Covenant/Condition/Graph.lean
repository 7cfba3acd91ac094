import Covenant.Condition.Description
import Covenant.Condition.Evaluation

/-!
# Condition graphs

Conditions that are put together in memory may share parts, may contain
themselves, and may contain values that are no conditions.  A graph numbers its
nodes, and a group refers to its conditions by number.  A group that occurs
inside itself is false there, and so is a value that is no condition.
-/

namespace Covenant

inductive ConditionNode where
  | comparison (comparison : Comparison)
  | group (operator : Value) (children : List Nat)
  | value (value : Value)

abbrev ConditionGraph := List ConditionNode

namespace ConditionGraph

/-- The operator of a group in capitals; an empty one is no operator. -/
def operatorText (operator : Value) : Text :=
  if operator.isFilled then Text.upper operator.plain else []

abbrev PathEvaluation := StateT (List Nat) Outcome

/-- Evaluates the inside of a group, which is on the path meanwhile. -/
def inside {α : Type} (index : Nat) (evaluation : PathEvaluation α) : PathEvaluation α := do
  modify (·.insert index)
  let result ← evaluation
  modify (·.erase index)
  return result

/-- Evaluates a node that may have the given number of levels. -/
def evaluateWithin (graph : ConditionGraph) (context : ContextMap) :
    Nat → Nat → PathEvaluation Bool
  | 0, _ => return false
  | levels + 1, index => do
      if (← get).contains index then return false
      match graph[index]? with
      | some (.comparison leaf) => leaf.evaluate context
      | some (.group operator children) =>
          inside index <|
            Condition.joinGroup (operatorText operator) (evaluateWithin graph context levels) children
      | _ => return false

/-- Evaluates a graph from its root.  A value at the root may be a stored condition. -/
def evaluate (maxDepth : Int) (graph : ConditionGraph) (context : ContextMap) (root : Nat) :
    Outcome Bool :=
  match graph[root]? with
  | some (.value stored) => Condition.evaluate maxDepth context stored
  | _ => (evaluateWithin graph context (Condition.levelsWithin maxDepth) root).run' []

/-- Describes a node.  Values are read as stored conditions. -/
def describeWithin (graph : ConditionGraph) : Nat → Nat → Text
  | 0, _ => "..."
  | levels + 1, index =>
      match graph[index]? with
      | some (.comparison leaf) => leaf.describe
      | some (.group operator children) =>
          Condition.describeGroup (Text.upper operator.plain)
            (children.map (describeWithin graph levels))
      | some (.value stored) => Condition.describeStored (levels + 1) stored
      | none => []

def describe (maxDepth : Int) (graph : ConditionGraph) (root : Nat) : Text :=
  describeWithin graph (Condition.levelsWithin maxDepth) root

end ConditionGraph

end Covenant
