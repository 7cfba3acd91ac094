import Covenant.Condition.Basic
import Covenant.Condition.Operator

/-!
# Conditions in words

A condition is described with the symbols of its operators and with groups in
parentheses.  What is nested too deep is cut off with dots.
-/

namespace Covenant

def Comparison.describe (comparison : Comparison) : Text :=
  let field := comparison.field.plain
  match Operator.ofValue? comparison.operator with
  | some .empty => field ++ " is empty"
  | some .notEmpty => field ++ " is not empty"
  | operator =>
      let symbol := (operator.map Operator.symbol).getD comparison.operator.plain
      let right :=
        if comparison.compareField.isFilled then comparison.compareField.plain
        else comparison.operand.shown
      field ++ ' ' :: symbol ++ ' ' :: right

namespace Condition

def describeGroup (operator : Text) (children : List Text) : Text :=
  if children.isEmpty then "TRUE"
  else '(' :: Text.joinWith (' ' :: operator ++ [' ']) children ++ [')']

def describeWithin : Nat → Condition → Text
  | 0, _ => "..."
  | _ + 1, .comparison leaf => leaf.describe
  | levels + 1, .group operator children =>
      describeGroup (Text.upper operator) (children.map (describeWithin levels))

/-- A stored value in words, with what is wrong with it if it is no condition. -/
def describeStored (levels : Nat) (stored : Value) : Text :=
  match stored with
  | .object _ =>
      match ofValue stored with
      | .ok condition => describeWithin levels condition
      | .error fault => "<invalid: " ++ fault.message ++ ['>']
  | other => "<malformed: " ++ other.shown ++ ['>']

end Condition

end Covenant
