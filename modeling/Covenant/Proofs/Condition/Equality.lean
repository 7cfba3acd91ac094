import Covenant.Condition.Evaluation
import Covenant.Proofs.Number.LetterCase
import Covenant.Proofs.Wording.Amount

/-!
# Equality of values

Equality does not depend on the order of the two values.  Values with the same text, up to letter case
and the white space around it, are read the same way, as numbers, as truth values or as texts, and are
equal.  Only what is not a number is not equal to itself.
-/

namespace Covenant

namespace Binary64

theorem eq_comm (first second : Binary64) : first.eq second = second.eq first := by
  cases first <;> cases second <;> simp only [eq, Bool.beq_comm]

theorem eq_self_iff (number : Binary64) : number.eq number = true ↔ number ≠ .nan := by
  cases number <;> simp [eq]

end Binary64

/-! ### Texts -/

theorem textsEqual_comm (first second : Text) : textsEqual first second = textsEqual second first := by
  rw [textsEqual, textsEqual]
  cases numberOfText? first <;> cases numberOfText? second
  case some.some left right => exact left.eq_comm right
  all_goals
    cases truthOfText? first <;> cases truthOfText? second <;> exact Bool.beq_comm

/-- Texts that are the same in lower case are equal if they are not what is not a number. -/
theorem textsEqual_iff_of_sameLower {first second : Text}
    (same : Text.sameLower (Text.trim first) (Text.trim second) = true) :
    textsEqual (Text.trim first) (Text.trim second) = true ↔ numberOfText? first ≠ some .nan := by
  have sameText := beq_iff_eq.mp same
  have sameNumber : numberOfText? (Text.trim second) = numberOfText? (Text.trim first) := by
    rw [← numberOfText?_lower, ← sameText, numberOfText?_lower]
  have sameTruth : truthOfText? (Text.trim second) = truthOfText? (Text.trim first) := by
    simp only [truthOfText?, Text.trim_trim, sameText]
  rw [textsEqual, sameNumber, sameTruth, ← numberOfText?_trim first]
  cases numberOfText? (Text.trim first) with
  | some number => simpa using number.eq_self_iff
  | none =>
      cases truthOfText? (Text.trim first) with
      | some truth => simp
      | none => simpa using same

/-! ### Comparisons -/

namespace Text

/-- A text in some letter case of ASCII, with white space around it. -/
def IsRespelling (text respelled : Text) : Prop :=
  ∃ before recased after, isAllBlank before = true ∧ isAllBlank after = true ∧
    recased.map Char.toLower = text.map Char.toLower ∧ respelled = before ++ (recased ++ after)

theorem IsRespelling.sameLower {text respelled : Text} (respelling : IsRespelling text respelled) :
    sameLower (trim text) (trim respelled) = true := by
  obtain ⟨before, recased, after, blankBefore, blankAfter, sameLetters, rfl⟩ := respelling
  rw [Text.sameLower, beq_iff_eq, trim_blanks_append blankBefore, trim_append_blanks blankAfter]
  calc lower (trim text) = lower (trim (text.map Char.toLower)) := by
        rw [trim_map_toLower, lower_map_toLower]
    _ = lower (trim (recased.map Char.toLower)) := by rw [sameLetters]
    _ = lower (trim recased) := by rw [trim_map_toLower, lower_map_toLower]

end Text

/-- A comparison of a field with its own text, in some letter case of ASCII and with white space around
it. -/
structure Comparison.ComparesOwnText (comparison : Comparison) (context : ContextMap) (actual : Text) :
    Prop where
  field : ∃ name, comparison.field = .text name ∧ Text.isAllBlank name = false ∧
    context.lookup name = some actual
  operand : ∃ respelled, comparison.operand = .text respelled ∧ Text.IsRespelling actual respelled
  noOtherField : comparison.compareField = .null

theorem Comparison.ComparesOwnText.exists_evaluate_eq {comparison : Comparison} {context : ContextMap}
    {actual : Text} (own : comparison.ComparesOwnText context actual) :
    ∃ expected : Value, Text.sameLower (Text.trim actual) (Text.trim expected.stored) = true ∧
      ∀ operator, Operator.ofValue? comparison.operator = some operator →
        comparison.evaluate context = operator.holds (some actual) expected := by
  obtain ⟨name, isField, named, isActual⟩ := own.field
  obtain ⟨respelled, isOperand, respelling⟩ := own.operand
  refine ⟨.text respelled, respelling.sameLower, fun operator isOperator => ?_⟩
  rw [Comparison.evaluate, isField, own.noOtherField, isOperand]
  simp only [evaluateField, named, Bool.false_eq_true, if_false, isOperator, isActual]

/-- **Equality respects the same text.**  Two values are equal in either order.  They are equal if their
trimmed texts are the same in lower case, unless these are what is not a number.  So a field is equal to
its own text in any letter case of ASCII and with any white space around it, with the same exception. -/
theorem valuesEqual_respects_sameText (first second : Value) :
    valuesEqual first second = valuesEqual second first ∧
    (Text.sameLower (Text.trim first.stored) (Text.trim second.stored) = true →
      (valuesEqual first second = true ↔ numberOfText? first.stored ≠ some .nan)) ∧
    ∀ (comparison : Comparison) context actual, comparison.ComparesOwnText context actual →
      (Operator.ofValue? comparison.operator = some .equals →
        comparison.evaluate context = .ok (decide (numberOfText? actual ≠ some .nan))) ∧
      (Operator.ofValue? comparison.operator = some .notEquals →
        comparison.evaluate context = .ok (decide (numberOfText? actual = some .nan))) := by
  refine ⟨textsEqual_comm _ _, textsEqual_iff_of_sameLower, fun comparison context actual own => ?_⟩
  obtain ⟨expected, same, evaluated⟩ := own.exists_evaluate_eq
  have isEqual : valuesEqual (.text actual) expected = decide (numberOfText? actual ≠ some .nan) := by
    rw [Bool.eq_iff_iff, decide_eq_true_eq]
    exact textsEqual_iff_of_sameLower same
  constructor
  · intro isOperator
    rw [evaluated _ isOperator]
    exact congrArg Except.ok isEqual
  · intro isOperator
    rw [evaluated _ isOperator]
    refine congrArg Except.ok ((congrArg not isEqual).trans ?_)
    simp

/-- An amount with an exponent and white space around it, and a name in another letter case. -/
theorem valuesEqual_respects_sameText_name :
    let amount : Value := .text "€ 1.250E1\n"
    let respelled : Value := .text " € 1.250e1"
    valuesEqual amount respelled = valuesEqual respelled amount ∧
      (Text.sameLower (Text.trim amount.stored) (Text.trim respelled.stored) = true ∧
        valuesEqual amount respelled = true) ∧
      Comparison.evaluate ⟨.text "Naam", .text "eq", .text " nANCY\t", .null⟩
        ⟨[{ name := "naam", text := "Nancy" }], false⟩ = .ok true ∧
      Comparison.evaluate ⟨.text "Naam", .text "<>", .text " nANCY\t", .null⟩
        ⟨[{ name := "naam", text := "Nancy" }], false⟩ = .ok false := by
  intro amount respelled
  obtain ⟨comm, equal_iff, own⟩ := valuesEqual_respects_sameText amount respelled
  have same : Text.sameLower (Text.trim amount.stored) (Text.trim respelled.stored) = true := by
    decide +kernel
  have isOwn (operator : Value) : Comparison.ComparesOwnText
      ⟨.text "Naam", operator, .text " nANCY\t", .null⟩ ⟨[{ name := "naam", text := "Nancy" }], false⟩
      "Nancy" :=
    { field := ⟨"Naam", rfl, by decide, by decide⟩
      operand := ⟨" nANCY\t", rfl, " ", "nANCY", "\t", by decide, by decide, by decide, rfl⟩
      noOtherField := rfl }
  refine ⟨comm, ⟨same, (equal_iff same).mpr (by decide +kernel)⟩, ?_, ?_⟩
  · exact (own _ _ _ (isOwn _)).1 (by decide +kernel)
  · exact (own _ _ _ (isOwn _)).2 (by decide +kernel)

/-- Nan is a name, but it is read as what is not a number. -/
theorem valuesEqual_nan :
    Text.sameLower (Text.trim (Value.text "nan").stored) (Text.trim (Value.text "nan").stored) = true ∧
      valuesEqual (.text "nan") (.text "nan") = false ∧
      Comparison.evaluate ⟨.text "Naam", .text "=", .text "Nan", .null⟩
        ⟨[{ name := "Naam", text := "Nan" }], false⟩ = .ok false := by
  exact ⟨by decide +kernel, by decide +kernel, Outcome.eq_ok_of_toOption (by decide +kernel)⟩

end Covenant
