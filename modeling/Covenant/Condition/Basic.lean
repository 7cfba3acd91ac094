import Covenant.Value.Basic
import Covenant.Text.Blank
import Covenant.Text.Case

/-!
# Conditions

A condition compares a field of the context with a fixed value or with another
field, or joins conditions by AND or OR.  Conditions are stored as objects with
English or Dutch member names; `Condition.ofValue` reads them and says what is
wrong with an object that is no condition.
-/

namespace Covenant

/-- A comparison as it is stored.  Its parts may be of any kind; whether they make sense is
decided when it is evaluated. -/
structure Comparison where
  field : Value
  operator : Value := .text "="
  operand : Value := .null
  /-- Another field to compare with, instead of the operand. -/
  compareField : Value := .null

inductive Condition where
  | comparison (comparison : Comparison)
  | group (operator : Text) (children : List Condition)

inductive ConditionFault where
  | notAnObject (kind : Text)
  | childrenNotAList
  | unknownGroupOperator (operator : Text)
  | noField

namespace ConditionFault

def message : ConditionFault → Text
  | notAnObject kind => "Condition must be an object, got " ++ kind
  | childrenNotAList => "Group conditions must be a list"
  | unknownGroupOperator operator => "Unknown group operator: " ++ operator
  | noField => "Condition leaf has no field"

end ConditionFault

namespace Condition

/-- The members under which the conditions of a group may be stored. -/
def childrenNames : List Text := ["conditions", "voorwaarden", "children"]

def groupOperator (members : Members) : Text :=
  let stored := ((members.get "operator").orElse (members.get "type")).orElse (.text "AND")
  let operator := Text.upper (Text.trim stored.plain)
  if operator = "EN" then "AND" else if operator = "OF" then "OR" else operator

def isGroupOperator (operator : Text) : Bool := operator = "AND" || operator = "OR"

def operatorOf (members : Members) : Text :=
  match members.lookup ("operator" : Text) with
  | some operator => operator.plain
  | none => "="

def comparisonOf (members : Members) : Except ConditionFault Condition :=
  let field := (members.get "field").orElse (members.get "veld")
  if field.isFilled then
    .ok (.comparison {
      field := .text field.plain
      operator := .text (operatorOf members)
      operand := members.getEither "value" "waarde"
      compareField := (members.get "compare_field").orElse (members.get "vergelijk_veld") })
  else .error .noField

mutual

def ofValue : Value → Except ConditionFault Condition
  | .object members =>
      match childrenNames.find? fun name => (members.lookup name).isSome with
      | none => comparisonOf members
      | some name =>
          match Members.get members name with
          | .null => comparisonOf members
          | .list _ =>
              let operator := groupOperator members
              if isGroupOperator operator then
                (ofListedUnder name members).map (group operator)
              else .error (.unknownGroupOperator operator)
          | _ => .error .childrenNotAList
  | value => .error (.notAnObject value.kindName)

/-- Reads the conditions in the list that a member holds. -/
def ofListedUnder (name : Text) : List (Text × Value) → Except ConditionFault (List Condition)
  | [] => .ok []
  | (other, value) :: members => if name = other then ofItems value else ofListedUnder name members

def ofItems : Value → Except ConditionFault (List Condition)
  | .list items => ofList items
  | _ => .ok []

def ofList : List Value → Except ConditionFault (List Condition)
  | [] => .ok []
  | item :: items => do
      let condition ← ofValue item
      return condition :: (← ofList items)

end

end Condition

end Covenant
