import Covenant.Text.Blank
import Covenant.Text.Case
import Covenant.Value.Basic

/-!
# Comparison operators

The operators of stored conditions, with the symbol of each and the other
spellings under which it is stored.
-/

namespace Covenant

inductive Operator where
  | equals
  | notEquals
  | greater
  | greaterOrEqual
  | less
  | lessOrEqual
  | contains
  | startsWith
  | endsWith
  | isIn
  | notIn
  | empty
  | notEmpty
deriving DecidableEq

namespace Operator

def all : List Operator := [
  equals, notEquals, greater, greaterOrEqual, less, lessOrEqual, contains, startsWith, endsWith,
  isIn, notIn, empty, notEmpty]

def symbol : Operator → Text
  | equals => "="
  | notEquals => "!="
  | greater => ">"
  | greaterOrEqual => ">="
  | less => "<"
  | lessOrEqual => "<="
  | contains => "contains"
  | startsWith => "starts-with"
  | endsWith => "ends-with"
  | isIn => "in"
  | notIn => "not-in"
  | empty => "empty"
  | notEmpty => "not-empty"

def otherSpellings : List (Text × Operator) := [
  ("==", equals), ("eq", equals), ("<>", notEquals), ("ne", notEquals), ("gt", greater),
  ("gte", greaterOrEqual), ("lt", less), ("lte", lessOrEqual), ("bevat", contains),
  ("begint_met", startsWith), ("eindigt_met", endsWith), ("niet_in", notIn), ("leeg", empty),
  ("niet_leeg", notEmpty)]

/-- The operator a text stands for; in symbols an underscore is as good as a dash. -/
def ofText? (text : Text) : Option Operator :=
  let word := Text.lower (Text.trim text)
  match otherSpellings.lookup word with
  | some operator => some operator
  | none => all.find? fun operator => operator.symbol = Text.replaceChar '_' "-" word

def ofValue? (value : Value) : Option Operator :=
  if value.isFilled then ofText? value.plain else none

end Operator

end Covenant
