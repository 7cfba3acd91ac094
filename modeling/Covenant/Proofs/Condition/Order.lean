import Covenant.Proofs.Condition.Value
import Covenant.Proofs.Number.Range

/-!
# Comparisons that cannot be evaluated

A comparison fails for one reason only: an operator that orders numbers is given an integer that
is too large for a number.  Whether the field is present, and whether it is a number, makes no
difference to that.
-/

namespace Covenant

/-- An operator that orders numbers. -/
def Operator.isNumeric : Operator → Bool
  | greater | greaterOrEqual | less | lessOrEqual => true
  | _ => false

/-- An integer beyond the range of numbers. -/
def Value.isTooLarge : Value → Bool
  | .int number => decide (Binary64.leastTooLarge ≤ number.natAbs)
  | _ => false

theorem Value.isTooLarge_int (number : Int) :
    (Value.int number).isTooLarge = true ↔ Binary64.ofInt? number = none := by
  rw [Value.isTooLarge, decide_eq_true_iff, Binary64.ofInt?_eq_none_iff]

theorem numberOf?_of_tooLarge {value : Value} (tooLarge : value.isTooLarge = true) :
    numberOf? value = .error .integerTooLarge := by
  cases value with
  | int number => rw [numberOf?, (Value.isTooLarge_int number).mp tooLarge]
  | _ => cases tooLarge

theorem exists_numberOf? {value : Value} (inRange : value.isTooLarge = false) :
    ∃ number, numberOf? value = .ok number := by
  cases value with
  | int number =>
      cases rounded : Binary64.ofInt? number with
      | none =>
          rw [(Value.isTooLarge_int number).mpr rounded] at inRange
          cases inRange
      | some nearest => exact ⟨some nearest, by rw [numberOf?, rounded]⟩
  | _ => exact ⟨_, rfl⟩

namespace Operator

variable {operator : Operator} {actual : Option Text} {expected : Value}

theorem exists_holds_eq_compareNumbers (numeric : operator.isNumeric = true) :
    ∃ compare, ∀ actual expected,
      operator.holds actual expected = compareNumbers compare actual expected := by
  cases operator with
  | greater => exact ⟨_, fun _ _ => rfl⟩
  | greaterOrEqual => exact ⟨_, fun _ _ => rfl⟩
  | less => exact ⟨_, fun _ _ => rfl⟩
  | lessOrEqual => exact ⟨_, fun _ _ => rfl⟩
  | _ => cases numeric

theorem holds_of_tooLarge (numeric : operator.isNumeric = true)
    (tooLarge : expected.isTooLarge = true) (actual : Option Text) :
    operator.holds actual expected = .error .integerTooLarge := by
  obtain ⟨compare, same⟩ := exists_holds_eq_compareNumbers numeric
  rw [same, compareNumbers, numberOf?_of_tooLarge tooLarge]
  rfl

theorem exists_holds (inRange : operator.isNumeric = true → expected.isTooLarge = false)
    (actual : Option Text) : ∃ truth, operator.holds actual expected = .ok truth := by
  by_cases numeric : operator.isNumeric = true
  · obtain ⟨compare, same⟩ := exists_holds_eq_compareNumbers numeric
    obtain ⟨number, read⟩ := exists_numberOf? (inRange numeric)
    rw [same, compareNumbers, read]
    exact ⟨_, rfl⟩
  · cases operator <;> first | exact absurd rfl numeric | exact ⟨_, rfl⟩

/-- What is no number cannot be ordered. -/
theorem holds_of_incomparable (numeric : operator.isNumeric = true) {number : Option Binary64}
    (read : numberOf? expected = .ok number)
    (incomparable : actual.bind numberOfText? = none ∨ number = none) :
    operator.holds actual expected = .ok false := by
  obtain ⟨compare, same⟩ := exists_holds_eq_compareNumbers numeric
  rw [same, compareNumbers, read, Outcome.ok_bind]
  rcases incomparable with noField | noOperand
  · rw [noField]
    rfl
  · rw [noOperand]
    cases actual.bind numberOfText? <;> rfl

end Operator

namespace Comparison

variable {comparison : Comparison} {context : ContextMap}

/-- The text of the field, if it is present. -/
def actual (context : ContextMap) (comparison : Comparison) : Option Text :=
  match comparison.field with
  | .text field => context.lookup field
  | _ => none

/-- What the field is compared with: another field if one is named, otherwise the operand. -/
def expected (context : ContextMap) (comparison : Comparison) : Value :=
  match comparison.compareField with
  | .text other => if other.isEmpty then comparison.operand else expectedFrom context other
  | _ => comparison.operand

theorem evaluate_of_complete (complete : comparison.isComplete = true) :
    comparison.evaluate context =
      match Operator.ofValue? comparison.operator with
      | some operator => operator.holds (comparison.actual context) (comparison.expected context)
      | none => .ok false := by
  obtain ⟨field, operator, operand, compareField⟩ := comparison
  rw [isComplete, Bool.and_eq_true] at complete
  cases field with
  | text field =>
      have notBlank : Text.isAllBlank field = false := by simpa using complete.1
      cases compareField with
      | null =>
          cases known : Operator.ofValue? operator <;>
            simp [evaluate, evaluateField, notBlank, actual, expected, known]
      | text other =>
          cases known : Operator.ofValue? operator <;>
            simp [evaluate, evaluateField, notBlank, actual, expected, known]
      | _ => cases complete.2
  | _ => cases complete.1

/-- The comparison orders numbers, and its operand is an integer that is too large for one. -/
def isTooLarge (comparison : Comparison) : Bool :=
  comparison.isComplete && (Operator.ofValue? comparison.operator).any Operator.isNumeric &&
    (!comparison.compareField.isFilled && comparison.operand.isTooLarge)

/-- The text of another field is never too large. -/
theorem expected_isTooLarge (complete : comparison.isComplete = true) :
    (comparison.expected context).isTooLarge =
      (!comparison.compareField.isFilled && comparison.operand.isTooLarge) := by
  obtain ⟨field, operator, operand, compareField⟩ := comparison
  rw [isComplete, Bool.and_eq_true] at complete
  cases compareField with
  | null => rfl
  | text other =>
      simp only [expected, Value.isFilled]
      by_cases noName : other.isEmpty = true
      · simp [noName]
      · simp only [noName, expectedFrom]
        cases context.lookup other <;> rfl
  | _ => cases complete.2

theorem isTooLarge_of_complete (complete : comparison.isComplete = true) :
    comparison.isTooLarge = ((Operator.ofValue? comparison.operator).any Operator.isNumeric &&
      (comparison.expected context).isTooLarge) := by
  rw [isTooLarge, complete, expected_isTooLarge complete, Bool.true_and]

theorem failsIff_evaluate : Outcome.FailsIff .integerTooLarge (comparison.isTooLarge = true)
    (comparison.truth context) (comparison.evaluate context) := by
  by_cases complete : comparison.isComplete = true
  · rw [isTooLarge_of_complete complete, Bool.and_eq_true, Option.any_eq_true]
    constructor
    · rintro ⟨⟨operator, known, numeric⟩, tooLarge⟩
      rw [evaluate_of_complete complete, known]
      exact Operator.holds_of_tooLarge numeric tooLarge _
    · intro inRange
      apply evaluate_eq_truth
      rw [Returns, evaluate_of_complete complete]
      cases known : Operator.ofValue? comparison.operator with
      | none => exact ⟨false, rfl⟩
      | some operator =>
          refine Operator.exists_holds (fun numeric => ?_) _
          rw [← Bool.not_eq_true]
          exact fun tooLarge => inRange ⟨⟨operator, known, numeric⟩, tooLarge⟩
  · have incomplete : comparison.isComplete = false := by simpa using complete
    refine .of_ok ?_ (by simp [isTooLarge, incomplete])
    rw [evaluate_of_incomplete incomplete, truth, incomplete, Bool.false_and]

/-- A comparison without a field, with an unknown operator or of what cannot be ordered. -/
def IsMeaningless (context : ContextMap) (comparison : Comparison) : Prop :=
  comparison.isComplete = false ∨ Operator.ofValue? comparison.operator = none ∨
    (Operator.ofValue? comparison.operator).any Operator.isNumeric = true ∧
      ((comparison.actual context).bind numberOfText? = none ∨
        numberOf? (comparison.expected context) = .ok none)

theorem evaluate_of_meaningless (inRange : comparison.isTooLarge = false)
    (meaningless : comparison.IsMeaningless context) : comparison.evaluate context = .ok false := by
  by_cases complete : comparison.isComplete = true
  · rw [evaluate_of_complete complete]
    cases known : Operator.ofValue? comparison.operator with
    | none => rfl
    | some operator =>
        rw [isTooLarge_of_complete complete, known] at inRange
        rw [IsMeaningless, complete, known] at meaningless
        obtain ⟨numeric, incomparable⟩ : operator.isNumeric = true ∧
            ((comparison.actual context).bind numberOfText? = none ∨
              numberOf? (comparison.expected context) = .ok none) := by simpa using meaningless
        have operandInRange : (comparison.expected context).isTooLarge = false := by
          simpa [numeric] using inRange
        obtain ⟨number, read⟩ := exists_numberOf? operandInRange
        exact Operator.holds_of_incomparable numeric read
          (incomparable.imp_right fun noNumber => Except.ok.inj (read.symm.trans noNumber))
  · exact evaluate_of_incomplete (by simpa using complete) context

end Comparison

end Covenant
