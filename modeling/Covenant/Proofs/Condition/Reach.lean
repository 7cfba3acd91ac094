import Covenant.Proofs.Condition.Graph
import Covenant.Proofs.Condition.Order

/-!
# When conditions can be evaluated

A group stops as soon as its value is known.  So a comparison that cannot be evaluated makes the
evaluation of a condition fail exactly when the conditions in front of it leave open the value of
every group around it.
-/

namespace Covenant

open Condition

/-! ## Groups -/

namespace Condition

/-- Evaluation of a condition at a depth comes to a comparison. -/
inductive Reaches (maxDepth : Int) (context : ContextMap) (leaf : Comparison) :
    Nat → Condition → Prop where
  | here {depth : Nat} (within : (depth : Int) ≤ maxDepth) :
      Reaches maxDepth context leaf depth (.comparison leaf)
  | inGroup {depth : Nat} {operator : Text} {children : List Condition} {child : Condition}
      (within : (depth : Int) ≤ maxDepth) (isGroup : isGroupOperator (Text.upper operator) = true)
      (comesTo : Outcome.ComesTo (value maxDepth context (depth + 1))
        (decide (Text.upper operator = "AND")) children child)
      (reaches : Reaches maxDepth context leaf (depth + 1) child) :
      Reaches maxDepth context leaf depth (.group operator children)

/-- Evaluation comes to a comparison that is too large. -/
def Overflows (maxDepth : Int) (context : ContextMap) (depth : Nat) (condition : Condition) : Prop :=
  ∃ leaf : Comparison, leaf.isTooLarge = true ∧ Reaches maxDepth context leaf depth condition

variable {maxDepth : Int} {context : ContextMap} {depth : Nat}

theorem not_overflows_of_tooDeep (tooDeep : ¬ (depth : Int) ≤ maxDepth) (condition : Condition) :
    ¬ Overflows maxDepth context depth condition := by
  rintro ⟨leaf, -, reaches⟩
  cases reaches with
  | here within => exact tooDeep within
  | inGroup within => exact tooDeep within

theorem overflows_comparison_iff (within : (depth : Int) ≤ maxDepth) (leaf : Comparison) :
    Overflows maxDepth context depth (.comparison leaf) ↔ leaf.isTooLarge = true := by
  constructor
  · rintro ⟨_, tooLarge, ⟨⟩⟩
    exact tooLarge
  · exact fun tooLarge => ⟨leaf, tooLarge, .here within⟩

theorem overflows_group_iff (within : (depth : Int) ≤ maxDepth) (operator : Text)
    (children : List Condition) :
    Overflows maxDepth context depth (.group operator children) ↔
      isGroupOperator (Text.upper operator) = true ∧
        ∃ child, Outcome.ComesTo (value maxDepth context (depth + 1))
          (decide (Text.upper operator = "AND")) children child ∧
            Overflows maxDepth context (depth + 1) child := by
  constructor
  · rintro ⟨leaf, tooLarge, ⟨⟩ | ⟨-, isGroup, comesTo, reaches⟩⟩
    exact ⟨isGroup, _, comesTo, leaf, tooLarge, reaches⟩
  · rintro ⟨isGroup, child, comesTo, leaf, tooLarge, reaches⟩
    exact ⟨leaf, tooLarge, .inGroup within isGroup comesTo reaches⟩

/-- A group fails when it comes to a condition that does. -/
theorem failsIff_joinGroup {α : Type} {fault : Fault} {fails : α → Prop} {evaluate : α → Outcome Bool}
    {truth : α → Bool} {children : List α} (operator : Text)
    (each : ∀ child ∈ children,
      Outcome.FailsIff fault (fails child) (truth child) (evaluate child)) :
    Outcome.FailsIff fault
      (isGroupOperator operator = true ∧
        ∃ child, Outcome.ComesTo truth (decide (operator = "AND")) children child ∧ fails child)
      (groupValue operator (children.map truth)) (joinGroup operator evaluate children) := by
  have all := Outcome.failsIff_allM each
  have any := Outcome.failsIff_anyM each
  rw [joinGroup, groupValue]
  by_cases isAnd : operator = "AND"
  · cases children with
    | nil => simpa [isAnd, isGroupOperator] using all
    | cons child children => simpa [isAnd, isGroupOperator] using all
  · by_cases isOr : operator = "OR"
    · cases children with
      | nil => exact .of_ok (by simp [isOr, isGroupOperator]; rfl) (by simp [Outcome.ComesTo])
      | cons child children => simpa [isOr, isGroupOperator] using any
    · simp only [isGroupOperator, isAnd, isOr, decide_false, Bool.or_self, Bool.false_eq_true,
        if_false, false_and]
      exact .of_ok rfl not_false

/-- Evaluation fails exactly when it comes to a comparison that is too large. -/
theorem failsIff_evaluateWithin {levels depth : Nat} (same : levels = levelsWithin (maxDepth - depth))
    (condition : Condition) :
    Outcome.FailsIff .integerTooLarge (Overflows maxDepth context depth condition)
      (value maxDepth context depth condition) (evaluateWithin context levels condition) := by
  induction levels generalizing depth condition with
  | zero =>
      have tooDeep := levelsWithin_eq_zero same
      refine .of_ok ?_ (not_overflows_of_tooDeep tooDeep condition)
      cases condition <;> simp [evaluateWithin, value, tooDeep]
  | succ levels ih =>
      obtain ⟨within, sameBelow⟩ := levelsWithin_eq_succ same
      cases condition with
      | comparison leaf =>
          rw [overflows_comparison_iff within, evaluateWithin, value, decide_eq_true within,
            Bool.true_and]
          exact Comparison.failsIff_evaluate
      | group operator children =>
          rw [overflows_group_iff within, evaluateWithin, value, decide_eq_true within,
            Bool.true_and]
          exact failsIff_joinGroup _ fun child _ => ih sameBelow child

end Condition

/-! ## Graphs -/

namespace ConditionGraph

section Evaluation

variable {children : List Nat} {evaluation : Nat → PathEvaluation Bool} {path : List Nat}

theorem run_allM_eq {outcome : Nat → Outcome Bool}
    (each : ∀ child ∈ children, (evaluation child).run path = (·, path) <$> outcome child) :
    (children.allM evaluation).run path = (·, path) <$> children.allM outcome := by
  induction children with
  | nil => rfl
  | cons child children ih =>
      have later := ih fun other member => each other (by simp [member])
      rw [List.allM_cons, List.allM_cons, StateT.run_bind, each child (by simp)]
      cases outcome child with
      | error fault => rfl
      | ok holds =>
          cases holds with
          | true => exact later
          | false => rfl

theorem run_anyM_eq {outcome : Nat → Outcome Bool}
    (each : ∀ child ∈ children, (evaluation child).run path = (·, path) <$> outcome child) :
    (children.anyM evaluation).run path = (·, path) <$> children.anyM outcome := by
  induction children with
  | nil => rfl
  | cons child children ih =>
      have later := ih fun other member => each other (by simp [member])
      rw [List.anyM_cons, List.anyM_cons, StateT.run_bind, each child (by simp)]
      cases outcome child with
      | error fault => rfl
      | ok holds =>
          cases holds with
          | true => rfl
          | false => exact later

/-- Conditions that leave the path as it was are joined as without a path. -/
theorem run_joinGroup_eq {outcome : Nat → Outcome Bool} (operator : Text)
    (each : ∀ child ∈ children, (evaluation child).run path = (·, path) <$> outcome child) :
    (joinGroup operator evaluation children).run path =
      (·, path) <$> joinGroup operator outcome children := by
  rw [joinGroup, joinGroup]
  split_ifs
  · rfl
  · exact run_allM_eq each
  · exact run_anyM_eq each
  · rfl

variable {fault : Fault} {fails : Nat → Prop} {truth : Nat → Bool}

theorem failsIff_run_joinGroup (operator : Text)
    (each : ∀ child ∈ children, Outcome.FailsIff fault (fails child) (truth child, path)
      ((evaluation child).run path)) :
    Outcome.FailsIff fault
      (isGroupOperator operator = true ∧
        ∃ child, Outcome.ComesTo truth (decide (operator = "AND")) children child ∧ fails child)
      (groupValue operator (children.map truth), path)
      ((joinGroup operator evaluation children).run path) := by
  have samePath : ∀ child ∈ children,
      (evaluation child).run path = (·, path) <$> (Prod.fst <$> (evaluation child).run path) := by
    intro child member
    by_cases failing : fails child
    · rw [(each child member).error failing]
      rfl
    · rw [(each child member).ok failing]
      rfl
  rw [run_joinGroup_eq operator samePath]
  exact (failsIff_joinGroup operator fun child member => (each child member).map Prod.fst).map (·, path)

theorem failsIff_run_inside {index : Nat} {result : Bool} {inner : PathEvaluation Bool}
    {fails : Prop} (outside : index ∉ path)
    (settles : Outcome.FailsIff fault fails (result, index :: path) (inner.run (index :: path))) :
    Outcome.FailsIff fault fails (result, path) ((inside index inner).run path) where
  ok returns := run_inside outside (settles.ok returns)
  error failing := by
    have entered : path.insert index = index :: path := List.insert_of_not_mem outside
    simp only [inside, StateT.run_bind, StateT.run_modify, entered, pure_bind, settles.error failing]
    rfl

end Evaluation

/-- Evaluation of a node at a depth, inside the given groups, comes to a comparison. -/
inductive Reaches (maxDepth : Int) (graph : ConditionGraph) (context : ContextMap)
    (leaf : Comparison) : Nat → List Nat → Nat → Prop where
  | here {depth : Nat} {ancestors : List Nat} {index : Nat} (within : (depth : Int) ≤ maxDepth)
      (node : graph[index]? = some (.comparison leaf)) :
      Reaches maxDepth graph context leaf depth ancestors index
  | inGroup {depth : Nat} {ancestors : List Nat} {index : Nat} {operator : Value}
      {children : List Nat} {child : Nat} (within : (depth : Int) ≤ maxDepth)
      (node : graph[index]? = some (.group operator children)) (entered : index ∉ ancestors)
      (isGroup : isGroupOperator (operatorText operator) = true)
      (comesTo : Outcome.ComesTo (value maxDepth graph context (depth + 1) (index :: ancestors))
        (decide (operatorText operator = "AND")) children child)
      (reaches : Reaches maxDepth graph context leaf (depth + 1) (index :: ancestors) child) :
      Reaches maxDepth graph context leaf depth ancestors index

/-- Evaluation of a node comes to a comparison that is too large. -/
def Overflows (maxDepth : Int) (graph : ConditionGraph) (context : ContextMap) (depth : Nat)
    (ancestors : List Nat) (index : Nat) : Prop :=
  ∃ leaf : Comparison, leaf.isTooLarge = true ∧
    Reaches maxDepth graph context leaf depth ancestors index

variable {maxDepth : Int} {graph : ConditionGraph} {context : ContextMap} {depth index : Nat}
  {ancestors : List Nat}

theorem not_overflows_of_tooDeep (tooDeep : ¬ (depth : Int) ≤ maxDepth) :
    ¬ Overflows maxDepth graph context depth ancestors index := by
  rintro ⟨leaf, -, reaches⟩
  cases reaches with
  | here within => exact tooDeep within
  | inGroup within => exact tooDeep within

theorem overflows_comparison_iff (within : (depth : Int) ≤ maxDepth) {leaf : Comparison}
    (node : graph[index]? = some (.comparison leaf)) :
    Overflows maxDepth graph context depth ancestors index ↔ leaf.isTooLarge = true := by
  constructor
  · rintro ⟨other, tooLarge, ⟨-, sameNode⟩ | ⟨-, sameNode⟩⟩
    · cases node.symm.trans sameNode
      exact tooLarge
    · cases node.symm.trans sameNode
  · exact fun tooLarge => ⟨leaf, tooLarge, .here within node⟩

theorem overflows_group_iff (within : (depth : Int) ≤ maxDepth) {operator : Value}
    {children : List Nat} (node : graph[index]? = some (.group operator children))
    (entered : index ∉ ancestors) :
    Overflows maxDepth graph context depth ancestors index ↔
      isGroupOperator (operatorText operator) = true ∧
        ∃ child, Outcome.ComesTo (value maxDepth graph context (depth + 1) (index :: ancestors))
          (decide (operatorText operator = "AND")) children child ∧
            Overflows maxDepth graph context (depth + 1) (index :: ancestors) child := by
  constructor
  · rintro ⟨leaf, tooLarge, ⟨-, sameNode⟩ | ⟨-, sameNode, -, isGroup, comesTo, reaches⟩⟩
    · cases node.symm.trans sameNode
    · cases node.symm.trans sameNode
      exact ⟨isGroup, _, comesTo, leaf, tooLarge, reaches⟩
  · rintro ⟨isGroup, child, comesTo, leaf, tooLarge, reaches⟩
    exact ⟨leaf, tooLarge, .inGroup within node entered isGroup comesTo reaches⟩

/-- A node that is no comparison, and a group inside itself, is false and comes to nothing. -/
theorem not_overflows_of_idle
    (idle : ∀ leaf, graph[index]? ≠ some (.comparison leaf))
    (closed : index ∈ ancestors ∨ ∀ operator children, graph[index]? ≠ some (.group operator children)) :
    ¬ Overflows maxDepth graph context depth ancestors index := by
  rintro ⟨leaf, -, ⟨-, node⟩ | ⟨-, node, entered, -⟩⟩
  · exact idle leaf node
  · exact closed.elim entered fun noGroup => noGroup _ _ node

/-- Evaluation of a node fails exactly when it comes to a comparison that is too large, and
otherwise leaves the path as it was. -/
theorem failsIff_run_evaluateWithin {levels depth : Nat}
    (same : levels = levelsWithin (maxDepth - depth)) {path : List Nat} (isPath : graph.IsPath path)
    (index : Nat) :
    Outcome.FailsIff .integerTooLarge (Overflows maxDepth graph context depth path index)
      (value maxDepth graph context depth path index, path)
      ((evaluateWithin graph context levels index).run path) := by
  induction levels generalizing depth path index with
  | zero =>
      have tooDeep := levelsWithin_eq_zero same
      refine .of_ok ?_ (not_overflows_of_tooDeep tooDeep)
      rw [value, if_neg tooDeep]
      rfl
  | succ levels ih =>
      obtain ⟨within, sameBelow⟩ := levelsWithin_eq_succ same
      rw [value, if_pos within, run_evaluateWithin_succ]
      by_cases onPath : index ∈ path
      · obtain ⟨operator, children, isGroup⟩ := isPath index onPath
        exact .of_ok (by simp [isGroup, onPath])
          (not_overflows_of_idle (by simp [isGroup]) (.inl onPath))
      · rw [if_neg onPath]
        rcases node : graph[index]? with _ | ⟨leaf⟩ | ⟨operator, children⟩ | stored
        · exact .of_ok rfl (not_overflows_of_idle (by simp [node]) (.inr (by simp [node])))
        · rw [overflows_comparison_iff within node]
          exact Comparison.failsIff_evaluate.map (·, path)
        · have isLonger : graph.IsPath (index :: path) := by
            intro other member
            rcases List.mem_cons.mp member with rfl | member
            · exact ⟨operator, children, node⟩
            · exact isPath other member
          rw [overflows_group_iff within node onPath]
          simp only [onPath, if_false]
          exact failsIff_run_inside onPath
            (failsIff_run_joinGroup _ fun child _ => ih sameBelow isLonger child)
        · exact .of_ok rfl (not_overflows_of_idle (by simp [node]) (.inr (by simp [node])))

/-- Evaluation of a stored condition comes to a comparison that is too large. -/
def StoredOverflows (maxDepth : Int) (context : ContextMap) (stored : Value) : Prop :=
  ∃ condition, Condition.ofValue stored = .ok condition ∧
    Condition.Overflows maxDepth context 0 condition

/-- Evaluation of a root comes to a comparison that is too large. -/
def RootOverflows (maxDepth : Int) (graph : ConditionGraph) (context : ContextMap) (root : Nat) :
    Prop :=
  match graph[root]? with
  | some (.value stored) => StoredOverflows maxDepth context stored
  | _ => Overflows maxDepth graph context 0 [] root

theorem failsIff_evaluate_stored (maxDepth : Int) (context : ContextMap) (stored : Value) :
    Outcome.FailsIff .integerTooLarge (StoredOverflows maxDepth context stored)
      (storedValue maxDepth context stored) (Condition.evaluate maxDepth context stored) := by
  have levels : levelsWithin maxDepth = levelsWithin (maxDepth - (0 : Nat)) := by simp
  rw [StoredOverflows, storedValue, Condition.evaluate]
  cases Condition.ofValue stored with
  | error fault =>
      refine .of_ok rfl ?_
      rintro ⟨condition, same, -⟩
      cases same
  | ok condition => simpa using Condition.failsIff_evaluateWithin levels condition

theorem failsIff_evaluate (maxDepth : Int) (graph : ConditionGraph) (context : ContextMap)
    (root : Nat) :
    Outcome.FailsIff .integerTooLarge (RootOverflows maxDepth graph context root)
      (rootValue maxDepth graph context root) (evaluate maxDepth graph context root) := by
  have levels : levelsWithin maxDepth = levelsWithin (maxDepth - (0 : Nat)) := by simp
  have atStart : graph.IsPath [] := nofun
  have fromRoot : Outcome.FailsIff .integerTooLarge (Overflows maxDepth graph context 0 [] root)
      (value maxDepth graph context 0 [] root)
      ((evaluateWithin graph context (levelsWithin maxDepth) root).run' []) :=
    (failsIff_run_evaluateWithin levels atStart root).map Prod.fst
  rw [RootOverflows, rootValue, evaluate]
  rcases node : graph[root]? with _ | ⟨leaf⟩ | ⟨operator, children⟩ | stored
  · exact fromRoot
  · exact fromRoot
  · exact fromRoot
  · have fromStored := failsIff_evaluate_stored maxDepth context stored
    have noNode : value maxDepth graph context 0 [] root = false := by
      rw [value, node]
      simp
    cases stored with
    | object members => exact fromStored
    | _ => simpa [storedValue, Condition.ofValue, noNode] using fromStored

/-- A stored comparison of an amount with a limit. -/
def limitedAmount (limit : Int) : Value :=
  .object [("field", .text "bedrag"), ("operator", .text ">"), ("value", .int limit)]

def amountMembers : Members := [("bedrag", .text "1")]

theorem ofValue_limitedAmount (limit : Int) : Condition.ofValue (limitedAmount limit) =
    .ok (.comparison { field := .text "bedrag", operator := .text ">", operand := .int limit }) := rfl

theorem storedOverflows_limitedAmount_iff (context : ContextMap) (limit : Int) :
    StoredOverflows 32 context (limitedAmount limit) ↔ (Value.int limit).isTooLarge = true := by
  have orders (operand : Value) : Comparison.isTooLarge
      { field := .text "bedrag", operator := .text ">", operand } = operand.isTooLarge := rfl
  rw [StoredOverflows, ofValue_limitedAmount, ← orders]
  constructor
  · rintro ⟨_, ⟨⟩, overflows⟩
    exact (Condition.overflows_comparison_iff (by decide) _).mp overflows
  · exact fun tooLarge =>
      ⟨_, rfl, (Condition.overflows_comparison_iff (by decide) _).mpr tooLarge⟩

end ConditionGraph

end Covenant
