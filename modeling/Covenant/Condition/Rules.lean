import Covenant.Condition.Evaluation
import Covenant.Settings

/-!
# Rules

A rule configuration lists rules, each with a condition and a result.  The first
rule whose condition holds gives the result; otherwise the default does.  Rules
that are no objects or have no condition are passed over.
-/

namespace Covenant

/-- The result of a configuration, and the number of the rule that gave it, counted from 1;
none for the default. -/
structure RuleResult where
  result : Text
  rule : Option Nat

namespace Rules

/-- The rules of a configuration; anything but a list stands for no rules. -/
def rulesOf (configuration : Members) : List Value :=
  match Members.getEither configuration "rules" "regels" with
  | .list rules => rules
  | _ => []

def resultIfMet (settings : Settings) (context : ContextMap) (rule : Value) :
    Outcome (Option Text) :=
  match rule with
  | .object members =>
      match Members.getEither members "condition" "conditie" with
      | .null => .ok none
      | condition => do
          if ← Condition.evaluate settings.maxConditionDepth context condition then
            return some (Members.getEither members "result" "resultaat").stored
          else return none
  | _ => .ok none

/-- The first of numbered rules that applies. -/
def firstMet (settings : Settings) (context : ContextMap) : Nat → List Value →
    Outcome (Option RuleResult)
  | _, [] => .ok none
  | number, rule :: rules => do
      match ← resultIfMet settings context rule with
      | some result => return some ⟨result, some number⟩
      | none => firstMet settings context (number + 1) rules

/-- Evaluates a configuration, which has to be an object to have any result. -/
def evaluate (settings : Settings) (context : ContextMap) (configuration : Value) :
    Outcome RuleResult :=
  match configuration with
  | .object members => do
      match ← firstMet settings context 1 (rulesOf members) with
      | some result => return result
      | none => return ⟨(Members.getEither members "default" "standaard").stored, none⟩
  | _ => .ok ⟨[], none⟩

end Rules

end Covenant
