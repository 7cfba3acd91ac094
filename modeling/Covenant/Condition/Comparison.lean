import Covenant.Condition.Basic
import Covenant.Condition.Operator
import Covenant.Context.Basic

/-!
# Comparing values

Numbers are compared as numbers whenever both sides are, in Dutch or English
notation; words for truth values are compared as such; all else is compared as
text in any letter case.  White space around a value never matters for equality.
-/

namespace Covenant

/-- The plain numeral in a text that may have a euro sign and Dutch separators. -/
def plainNumeral (text : Text) : Text :=
  let text := Text.removeChar ' ' (Text.removeChar '€' (Text.trim text))
  if text.contains ',' then
    Text.replaceChar ',' "." (if text.contains '.' then Text.removeChar '.' text else text)
  else text

/-- The number a text denotes: `1.234,56`, `12,5`, `€ 300` or `42`. -/
def numberOfText? (text : Text) : Option Binary64 := Binary64.ofText? (plainNumeral text)

/-- The number a value denotes.  An integer beyond the range of numbers is a fault. -/
def numberOf? : Value → Outcome (Option Binary64)
  | .null => .ok none
  | .bool _ => .ok none
  | .int number =>
      match Binary64.ofInt? number with
      | some number => .ok (some number)
      | none => .error .integerTooLarge
  | .float number => .ok (some number)
  | value => .ok (numberOfText? value.plain)

def trueWords : List Text := ["true", "ja", "yes", "1", "waar"]

def falseWords : List Text := ["false", "nee", "no", "0", "onwaar"]

def truthOfText? (text : Text) : Option Bool :=
  let word := Text.lower (Text.trim text)
  if trueWords.contains word then some true
  else if falseWords.contains word then some false
  else none

/-- Equality of trimmed texts as numbers, as truth values or as text. -/
def textsEqual (first second : Text) : Bool :=
  match numberOfText? first, numberOfText? second with
  | some first, some second => first.eq second
  | _, _ => match truthOfText? first, truthOfText? second with
    | some first, some second => first == second
    | _, _ => Text.sameLower first second

def valuesEqual (first second : Value) : Bool :=
  textsEqual (Text.trim first.stored) (Text.trim second.stored)

/-- The entries of a list, or the parts of a text between commas, without blank ones. -/
def alternatives (value : Value) : List Text :=
  let parts := match value with
    | .list items => items.map Value.stored
    | value => Text.splitAt ',' value.stored
  (parts.filter fun part => !Text.isAllBlank part).map fun part => Text.lower (Text.trim part)

namespace Operator

/-- An operator that needs two numbers; without them it does not hold. -/
def compareNumbers (compare : Binary64 → Binary64 → Bool) (actual : Option Text)
    (expected : Value) : Outcome Bool := do
  let right ← numberOf? expected
  return match actual.bind numberOfText?, right with
    | some left, some right => compare left right
    | _, _ => false

/-- An operator on the lower-case texts of a field that is present. -/
def compareTexts (compare : Text → Text → Bool) (actual : Option Text) (expected : Value) : Bool :=
  match actual with
  | some actual => compare (Text.lower actual) (Text.lower expected.stored)
  | none => false

/-- Whether a field, if present, stands in the relation to the expected value. -/
def holds (operator : Operator) (actual : Option Text) (expected : Value) : Outcome Bool :=
  let present : Value := (actual.map Value.text).getD .null
  let isBlank := actual.all Text.isAllBlank
  let isMember := (alternatives expected).contains (Text.lower (Text.trim (actual.getD [])))
  match operator with
  | empty => .ok isBlank
  | notEmpty => .ok !isBlank
  | equals => .ok (valuesEqual present expected)
  | notEquals => .ok !(valuesEqual present expected)
  | greater => compareNumbers (fun left right => right.lt left) actual expected
  | greaterOrEqual => compareNumbers (fun left right => right.le left) actual expected
  | less => compareNumbers Binary64.lt actual expected
  | lessOrEqual => compareNumbers Binary64.le actual expected
  | isIn => .ok isMember
  | notIn => .ok !isMember
  | contains => .ok (compareTexts (fun text needle => Text.hasInfix needle text) actual expected)
  | startsWith => .ok (compareTexts (fun text needle => needle.isPrefixOf text) actual expected)
  | endsWith => .ok (compareTexts (fun text needle => needle.isSuffixOf text) actual expected)

end Operator

namespace Comparison

/-- Compares a field with an expected value; a blank field and an unknown operator give false. -/
def evaluateField (operator : Value) (context : ContextMap) (field : Text) (expected : Value) :
    Outcome Bool :=
  if Text.isAllBlank field then .ok false
  else match Operator.ofValue? operator with
    | some operator => operator.holds (context.lookup field) expected
    | none => .ok false

def expectedFrom (context : ContextMap) (name : Text) : Value :=
  ((context.lookup name).map Value.text).getD .null

/-- Evaluates a comparison.  It is false when its field is no text, and when the other field
is given but no text. -/
def evaluate (comparison : Comparison) (context : ContextMap) : Outcome Bool :=
  match comparison.field, comparison.compareField with
  | .text field, .null => evaluateField comparison.operator context field comparison.operand
  | .text field, .text other =>
      evaluateField comparison.operator context field
        (if other.isEmpty then comparison.operand else expectedFrom context other)
  | _, _ => .ok false

end Comparison

end Covenant
