import Covenant.Condition.Evaluation
import Covenant.Proofs.Outcome

/-!
# The truth value of a condition

What a condition is worth, said without an order of evaluation: every condition of a group has a
value, and the value of the group is their conjunction or disjunction.  Evaluation stops early
and can fail; when no comparison fails, it gives this value.
-/

namespace Covenant

namespace Comparison

/-- The field is a text that is not blank, and the other field is a text if it is given. -/
def isComplete (comparison : Comparison) : Bool :=
  (match comparison.field with
    | .text field => !Text.isAllBlank field
    | _ => false) &&
  match comparison.compareField with
  | .null => true
  | .text _ => true
  | _ => false

/-- A comparison can be evaluated in a context. -/
def Returns (context : ContextMap) (comparison : Comparison) : Prop :=
  ∃ truth, comparison.evaluate context = .ok truth

/-- The value of a comparison; an incomplete one is false. -/
def truth (context : ContextMap) (comparison : Comparison) : Bool :=
  comparison.isComplete &&
    match comparison.evaluate context with
    | .ok truth => truth
    | .error _ => false

theorem evaluate_of_incomplete {comparison : Comparison} (incomplete : comparison.isComplete = false)
    (context : ContextMap) : comparison.evaluate context = .ok false := by
  obtain ⟨field, operator, operand, compareField⟩ := comparison
  rw [isComplete, Bool.and_eq_false_iff] at incomplete
  cases field with
  | text field =>
      rcases incomplete with blank | noText
      · have isBlank : Text.isAllBlank field = true := by simpa using blank
        cases compareField <;> simp [evaluate, evaluateField, isBlank]
      · cases compareField <;> simp_all [evaluate]
  | _ => rfl

theorem evaluate_eq_truth {comparison : Comparison} {context : ContextMap}
    (returns : comparison.Returns context) :
    comparison.evaluate context = .ok (comparison.truth context) := by
  by_cases complete : comparison.isComplete = true
  · obtain ⟨value, evaluated⟩ := returns
    simp [truth, complete, evaluated]
  · have incomplete : comparison.isComplete = false := by simpa using complete
    rw [evaluate_of_incomplete incomplete, truth, incomplete, Bool.false_and]

end Comparison

namespace Condition

/-- The value of a group whose conditions have the given values. -/
def groupValue (operator : Text) (truths : List Bool) : Bool :=
  if operator = "AND" then truths.all id
  else if operator = "OR" then truths.isEmpty || truths.any id
  else false

/-- The value of a condition at a depth. -/
def value (maxDepth : Int) (context : ContextMap) (depth : Nat) : Condition → Bool
  | .comparison leaf => decide (depth ≤ maxDepth) && leaf.truth context
  | .group operator children =>
      decide (depth ≤ maxDepth) &&
        groupValue (Text.upper operator) (children.map (value maxDepth context (depth + 1)))

/-- A comparison is part of a condition. -/
inductive Has (leaf : Comparison) : Condition → Prop where
  | here : Has leaf (.comparison leaf)
  | within {operator : Text} {children : List Condition} {child : Condition}
      (member : child ∈ children) (has : Has leaf child) : Has leaf (.group operator children)

section Joining

variable {m : Type → Type} [Monad m] [LawfulMonad m] {α : Type} {evaluate : α → m Bool}
  {truth : α → Bool} {children : List α}

theorem joinGroup_eq_pure (operator : Text)
    (each : ∀ child ∈ children, evaluate child = pure (truth child)) :
    joinGroup operator evaluate children = pure (groupValue operator (children.map truth)) := by
  rw [joinGroup, Outcome.allM_eq_pure each, Outcome.anyM_eq_pure each, groupValue]
  by_cases isAnd : operator = "AND"
  · cases children <;> simp [isAnd, isGroupOperator]
  · by_cases isOr : operator = "OR"
    · cases children <;> simp [isOr, isGroupOperator]
    · simp only [isGroupOperator, isAnd, isOr, decide_false, Bool.or_self, Bool.false_eq_true,
        if_false]

end Joining

theorem levelsWithin_eq_zero {maxDepth : Int} {depth : Nat}
    (levels : 0 = levelsWithin (maxDepth - depth)) : ¬ (depth : Int) ≤ maxDepth := by
  rw [levelsWithin] at levels
  omega

theorem levelsWithin_eq_succ {maxDepth : Int} {depth levels : Nat}
    (same : levels + 1 = levelsWithin (maxDepth - depth)) :
    (depth : Int) ≤ maxDepth ∧ levels = levelsWithin (maxDepth - (depth + 1 : Nat)) := by
  rw [levelsWithin] at same ⊢
  omega

/-- A condition evaluates to its value if its comparisons can be evaluated. -/
theorem evaluateWithin_eq_value {maxDepth : Int} {context : ContextMap} {condition : Condition}
    {levels depth : Nat} (same : levels = levelsWithin (maxDepth - depth))
    (returns : ∀ leaf, Has leaf condition → leaf.Returns context) :
    evaluateWithin context levels condition = .ok (value maxDepth context depth condition) := by
  induction levels generalizing depth condition with
  | zero =>
      have tooDeep := levelsWithin_eq_zero same
      cases condition <;> simp [evaluateWithin, value, tooDeep]
  | succ levels ih =>
      obtain ⟨within, sameBelow⟩ := levelsWithin_eq_succ same
      cases condition with
      | comparison leaf =>
          simp [evaluateWithin, value, within, Comparison.evaluate_eq_truth (returns leaf .here)]
      | group operator children =>
          have each : ∀ child ∈ children, evaluateWithin context levels child =
              pure (value maxDepth context (depth + 1) child) :=
            fun child member => ih sameBelow fun leaf has => returns leaf (.within member has)
          rw [evaluateWithin, joinGroup_eq_pure _ each]
          simp [value, within]
          rfl

end Condition

end Covenant
