import Covenant.Case.Clause
import Covenant.Case.Person

/-!
# Case data

Everything a document is resolved from: the fields of the case, the parties and
children, stored collections, the clause library, custom placeholders, and
placeholders whose value is chosen by rules.
-/

namespace Covenant

/-- Stored pairs of keys and values.  Keys are usually texts, but pairs may be stored as a
list, and then a key may be of any simple kind. -/
abbrev KeyedValues := List (Value × Value)

namespace KeyedValues

/-- A number in units of the least positive floating-point number. -/
def scaled? : Value → Option Int
  | .bool truth => some (truth.toInt * Nat.pow 2 1074)
  | .int number => some (number * Nat.pow 2 1074)
  | .float (.finite negative mantissa exponent) => some (Binary64.scaled negative mantissa exponent)
  | _ => none

/-- Whether two keys are the same: numbers and truth values by their numerical value. -/
def sameKey : Value → Value → Bool
  | .null, .null => true
  | .text first, .text second => first == second
  | .float (.infinite first), .float (.infinite second) => first == second
  | first, second =>
      match scaled? first, scaled? second with
      | some first, some second => first == second
      | _, _ => false

/-- Gives a key its value, in place when the key is present. -/
def insert (key value : Value) : KeyedValues → KeyedValues
  | [] => [(key, value)]
  | (other, old) :: rest =>
      if sameKey other key then (other, value) :: rest else (other, old) :: insert key value rest

def isKey : Value → Bool
  | .list _ | .object _ => false
  | _ => true

/-- Reads the pairs in a list of two-part values; `index` counts them. -/
def ofParts : Nat → KeyedValues → List Value → Outcome KeyedValues
  | _, pairs, [] => .ok pairs
  | index, pairs, part :: rest =>
      match part.parts with
      | .error _ => .error (.notPair index)
      | .ok [key, value] =>
          if isKey key then ofParts (index + 1) (insert key value pairs) rest
          else .error (.unhashable key.kindName)
      | .ok parts => .error (.pairLength index parts.length)

/-- Reads keyed values: an object, a list of pairs, or an empty value for none. -/
def ofValue (stored : Value) : Outcome KeyedValues :=
  if stored.isFilled then
    match stored with
    | .object members => .ok (members.map fun (name, value) => (.text name, value))
    | value => do ofParts 0 [] (← value.parts)
  else .ok []

end KeyedValues

/-- A placeholder whose value is chosen by a rule configuration. -/
structure ConditionalPlaceholder where
  key : Value
  configuration : Value

namespace ConditionalPlaceholder

def ofRecord (stored : Value) : Outcome ConditionalPlaceholder :=
  match stored with
  | .object members =>
      match members.lookup ("key" : Text) with
      | some key => .ok ⟨key, (members.lookup ("config" : Text)).getD (.object [])⟩
      | none => .error (.missingMember (.text "key"))
  | .text _ => .error .textIndexed
  | .list _ => .error .listIndexed
  | other => .error (.notSubscriptable other.kindName)

/-- Reads conditional placeholders, stored by key or as a list of records. -/
def listOf (stored : Value) : Outcome (List ConditionalPlaceholder) :=
  if stored.isFilled then
    match stored with
    | .object members => .ok (members.map fun (name, value) => ⟨.text name, value⟩)
    | value => do (← value.parts).mapM ofRecord
  else .ok []

end ConditionalPlaceholder

structure CaseData where
  fields : KeyedValues := []
  parties : List Party := []
  children : List Child := []
  collections : KeyedValues := []
  marriageDate : Option Date := none
  hasChildrenFromMarriage : Value := .null
  hasChildrenBeforeMarriage : Value := .null
  clauses : List Clause := []
  customPlaceholders : List (Text × Text) := []
  conditionalPlaceholders : List ConditionalPlaceholder := []
  referenceDate : Option Date := none
  today : Date

namespace CaseData

/-- The day for which ages are counted. -/
def ageDate (data : CaseData) : Date := data.referenceDate.getD data.today

/-- The parts of a stored list; an empty value has none. -/
def listed (stored : Value) : Outcome (List Value) :=
  if stored.isFilled then stored.parts else .ok []

/-- Custom placeholders with their plain texts; null becomes empty. -/
def customOf (stored : Value) : Outcome (List (Text × Text)) :=
  if stored.isFilled then do
    let members ← stored.asObject
    return members.map fun (name, value) => (name, if value.isNull then [] else value.plain)
  else .ok []

def ofValue (today : Date) (stored : Value) : Outcome CaseData := do
  let members ← stored.asObject
  let conditionalPlaceholders ←
    ConditionalPlaceholder.listOf (Members.get members "conditional_placeholders")
  let fields ← KeyedValues.ofValue (Members.get members "fields")
  let parties ← (← listed (Members.get members "parties")).mapM (Party.ofValue today)
  let children ← (← listed (Members.get members "children")).mapM (Child.ofValue today)
  let collections ← KeyedValues.ofValue (Members.get members "collections")
  let clauses ← (← listed (Members.get members "clauses")).mapM Clause.ofValue
  let customPlaceholders ← customOf (Members.get members "custom_placeholders")
  return {
    fields, parties, children, collections
    marriageDate := Date.ofValue? today (Members.get members "marriage_date")
    hasChildrenFromMarriage := Members.get members "has_children_from_marriage"
    hasChildrenBeforeMarriage := Members.get members "has_children_before_marriage"
    clauses, customPlaceholders, conditionalPlaceholders
    referenceDate := Date.ofValue? today (Members.get members "reference_date")
    today }

def minors (maturityAge : Int) (data : CaseData) : List Child :=
  data.children.filter (·.isMinor maturityAge data.ageDate)

end CaseData

end Covenant
