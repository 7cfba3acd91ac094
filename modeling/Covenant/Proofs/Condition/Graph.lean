import Covenant.Condition.Graph
import Covenant.Proofs.Condition.Value

/-!
# The truth value of a condition graph

The value of a node depends on its depth and on the groups around it, and on nothing that was
evaluated before.  The evaluation keeps the groups around a node in one path that all nodes
share; the invariant is that every evaluation leaves the path as it found it, also when a group
stops early, so a group that is met again outside of itself is evaluated again.
-/

namespace Covenant

open Condition

namespace ConditionGraph

/-- The value of a node at a depth, inside the given groups. -/
def value (maxDepth : Int) (graph : ConditionGraph) (context : ContextMap) (depth : Nat)
    (ancestors : List Nat) (index : Nat) : Bool :=
  if (depth : Int) ≤ maxDepth then
    match graph[index]? with
    | some (.comparison leaf) => leaf.truth context
    | some (.group operator children) =>
        if index ∈ ancestors then false
        else groupValue (operatorText operator) (children.map fun child =>
          value maxDepth graph context (depth + 1) (index :: ancestors) child)
    | _ => false
  else false
termination_by (maxDepth + 1 - depth).toNat

/-- The comparisons of a graph can be evaluated in a context. -/
def Returns (graph : ConditionGraph) (context : ContextMap) : Prop :=
  ∀ leaf, .comparison leaf ∈ graph → leaf.Returns context

/-- All nodes on a path are groups. -/
def IsPath (graph : ConditionGraph) (path : List Nat) : Prop :=
  ∀ index ∈ path, ∃ operator children, graph[index]? = some (.group operator children)

section Evaluation

variable {children : List Nat} {evaluation : Nat → PathEvaluation Bool} {truth : Nat → Bool}
  {path : List Nat}

theorem run_allM (each : ∀ child ∈ children, (evaluation child).run path = .ok (truth child, path)) :
    (children.allM evaluation).run path = .ok (children.all truth, path) := by
  induction children with
  | nil => rfl
  | cons child children ih =>
      have later := ih fun other member => each other (by simp [member])
      rw [List.allM_cons, StateT.run_bind, each child (by simp), Outcome.ok_bind]
      cases own : truth child with
      | true => simp [own, later]
      | false =>
          simp only [List.all_cons, own, Bool.false_and]
          rfl

theorem run_anyM (each : ∀ child ∈ children, (evaluation child).run path = .ok (truth child, path)) :
    (children.anyM evaluation).run path = .ok (children.any truth, path) := by
  induction children with
  | nil => rfl
  | cons child children ih =>
      have later := ih fun other member => each other (by simp [member])
      rw [List.anyM_cons, StateT.run_bind, each child (by simp), Outcome.ok_bind]
      cases own : truth child with
      | true =>
          simp only [List.any_cons, own, Bool.true_or]
          rfl
      | false => simp [own, later]

theorem run_joinGroup (operator : Text)
    (each : ∀ child ∈ children, (evaluation child).run path = .ok (truth child, path)) :
    (joinGroup operator evaluation children).run path =
      .ok (groupValue operator (children.map truth), path) := by
  have all := run_allM each
  have any := run_anyM each
  rw [joinGroup, groupValue]
  by_cases isAnd : operator = "AND"
  · cases children with
    | nil => simp [isAnd, isGroupOperator]; rfl
    | cons child children => simpa [isAnd, isGroupOperator] using all
  · by_cases isOr : operator = "OR"
    · cases children with
      | nil => simp [isOr, isGroupOperator]; rfl
      | cons child children => simpa [isOr, isGroupOperator] using any
    · simp only [isGroupOperator, isAnd, isOr, decide_false, Bool.or_self, Bool.false_eq_true,
        if_false]
      rfl

theorem run_inside {index : Nat} {result : Bool} {inner : PathEvaluation Bool}
    (outside : index ∉ path) (evaluated : inner.run (index :: path) = .ok (result, index :: path)) :
    (inside index inner).run path = .ok (result, path) := by
  have entered : path.insert index = index :: path := List.insert_of_not_mem outside
  have left : (index :: path).erase index = path := List.erase_cons_head index path
  simp only [inside, StateT.run_bind, StateT.run_modify, entered, pure_bind, evaluated,
    Outcome.ok_bind, left, StateT.run_pure]
  rfl

end Evaluation

variable {maxDepth : Int} {graph : ConditionGraph} {context : ContextMap}

theorem run_evaluateWithin_succ (levels index : Nat) (path : List Nat) :
    (evaluateWithin graph context (levels + 1) index).run path =
      if index ∈ path then .ok (false, path)
      else match graph[index]? with
        | some (.comparison leaf) => (leaf.evaluate context).map fun truth => (truth, path)
        | some (.group operator children) =>
            (inside index (joinGroup (operatorText operator)
              (evaluateWithin graph context levels) children)).run path
        | _ => .ok (false, path) := by
  rw [evaluateWithin, StateT.run_bind, StateT.run_get, pure_bind]
  by_cases onPath : index ∈ path
  · rw [if_pos onPath, if_pos (List.contains_iff_mem.mpr onPath)]
    rfl
  · rw [if_neg onPath, if_neg fun contains => onPath (List.contains_iff_mem.mp contains)]
    rcases graph[index]? with _ | ⟨leaf⟩ | ⟨operator, children⟩ | stored
    · rfl
    · simp only
      cases leaf.evaluate context with
      | error fault => rfl
      | ok truth => rfl
    · rfl
    · rfl

/-- The evaluation of a node gives its value and leaves the path as it was. -/
theorem run_evaluateWithin (returns : graph.Returns context) {levels depth : Nat}
    (same : levels = levelsWithin (maxDepth - depth)) {path : List Nat} (isPath : graph.IsPath path)
    (index : Nat) :
    (evaluateWithin graph context levels index).run path =
      .ok (value maxDepth graph context depth path index, path) := by
  induction levels generalizing depth path index with
  | zero =>
      rw [value, if_neg (levelsWithin_eq_zero same)]
      rfl
  | succ levels ih =>
      obtain ⟨within, sameBelow⟩ := levelsWithin_eq_succ same
      rw [value, if_pos within, run_evaluateWithin_succ]
      by_cases onPath : index ∈ path
      · obtain ⟨operator, children, isGroup⟩ := isPath index onPath
        simp [isGroup, onPath]
      · rw [if_neg onPath]
        rcases node : graph[index]? with _ | ⟨leaf⟩ | ⟨operator, children⟩ | stored
        · rfl
        · have evaluated := Comparison.evaluate_eq_truth
            (returns leaf (List.mem_of_getElem? node))
          simp [evaluated, Except.map]
        · have isLonger : graph.IsPath (index :: path) := by
            intro other member
            rcases List.mem_cons.mp member with rfl | member
            · exact ⟨operator, children, node⟩
            · exact isPath other member
          simp only [onPath, if_false]
          exact run_inside onPath
            (run_joinGroup _ fun child _ => ih sameBelow isLonger child)
        · rfl

/-- The value of a stored condition; what is no condition is false. -/
def storedValue (maxDepth : Int) (context : ContextMap) (stored : Value) : Bool :=
  match Condition.ofValue stored with
  | .ok condition => condition.value maxDepth context 0
  | .error _ => false

/-- The value of a root.  An object at the root is a stored condition. -/
def rootValue (maxDepth : Int) (graph : ConditionGraph) (context : ContextMap) (root : Nat) :
    Bool :=
  match graph[root]? with
  | some (.value (.object members)) => storedValue maxDepth context (.object members)
  | _ => value maxDepth graph context 0 [] root

/-- The comparisons of a stored condition at the root can be evaluated. -/
def RootReturns (graph : ConditionGraph) (context : ContextMap) (root : Nat) : Prop :=
  ∀ stored condition leaf, graph[root]? = some (.value stored) →
    Condition.ofValue stored = .ok condition → Has leaf condition → leaf.Returns context

theorem evaluate_eq_rootValue (returns : graph.Returns context) {root : Nat}
    (rootReturns : graph.RootReturns context root) :
    evaluate maxDepth graph context root = .ok (rootValue maxDepth graph context root) := by
  have levels : levelsWithin maxDepth = levelsWithin (maxDepth - (0 : Nat)) := by simp
  have fromRoot : ((evaluateWithin graph context (levelsWithin maxDepth) root).run' []) =
      .ok (value maxDepth graph context 0 [] root) := by
    have atStart : graph.IsPath [] := nofun
    have run := run_evaluateWithin returns levels atStart root
    rw [StateT.run'_eq, run]
    rfl
  rw [evaluate, rootValue]
  rcases node : graph[root]? with _ | ⟨leaf⟩ | ⟨operator, children⟩ | stored
  · exact fromRoot
  · exact fromRoot
  · exact fromRoot
  · have notGroup : value maxDepth graph context 0 [] root = false := by
      rw [value, node]
      simp
    cases stored with
    | object members =>
        cases read : Condition.ofValue (.object members) with
        | error fault => simp [Condition.evaluate, storedValue, read]
        | ok condition =>
            simp only [Condition.evaluate, storedValue, read]
            exact evaluateWithin_eq_value levels fun leaf has =>
              rootReturns _ condition leaf node read has
    | _ => simp [Condition.evaluate, Condition.ofValue, notGroup]

end ConditionGraph

end Covenant
