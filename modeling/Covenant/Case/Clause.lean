import Covenant.Fault
import Covenant.Text.Case
import Covenant.Text.Blank
import Covenant.Value.Reader

/-!
# Clauses

A clause is a reusable article with a place in the library's order.  Users and
cases may bring their own title and text.  A conditional clause has a condition,
stored as an object or as text in JSON; when that text cannot be read, the
clause keeps the message and never applies.
-/

namespace Covenant

/-- How the heading of a clause takes part in the numbering. -/
inductive HeadingNumbering where
  | newNumber
  | continued
  | unnumbered
deriving DecidableEq

namespace HeadingNumbering

def name : HeadingNumbering → Text
  | newNumber => "new_number"
  | continued => "continue"
  | unnumbered => "none"

def spellings : List (Text × HeadingNumbering) := [
  ("new_number", newNumber), ("continue", continued), ("none", unnumbered),
  ("nieuw_nummer", newNumber), ("doornummeren", continued), ("geen_nummer", unnumbered)]

/-- The numbering in a stored value; what is empty or unknown takes a new number. -/
def ofValue (stored : Value) : Outcome HeadingNumbering :=
  if stored.isFilled then do
    let word ← stored.asText
    return (spellings.lookup (Text.lower (Text.trim word))).getD .newNumber
  else .ok .newNumber

end HeadingNumbering

structure Clause where
  code : Value
  title : Value
  text : Value
  order : Int
  numbering : HeadingNumbering
  isConditional : Bool
  conditionField : Value
  condition : Value
  userTitle : Value
  userText : Value
  caseText : Value
  conditionError : Option Text

/-- The value under the first of two names that is present, the empty text when neither is. -/
def Members.present (members : Members) (first second : Text) : Value :=
  match members.lookup first with
  | some value => value
  | none => (members.lookup second).getD (.text [])

namespace Clause

/-- The condition in a stored value, or the message about text that is no JSON. -/
def conditionOf (stored : Value) : Outcome (Value × Option Text) :=
  match stored with
  | .text json =>
      if Text.isAllBlank json then .ok (.null, none)
      else match Value.ofJson json with
        | .ok value => .ok (value, none)
        | .error (.fault fault remaining) => .ok (.null, some (fault.describe json remaining))
        | .error (.tooManyDigits count) => .error (.tooManyDigits count)
  | value => .ok (value, none)

/-- The place in the order; an empty value stands for zero. -/
def orderOf (stored : Value) : Outcome Int := if stored.isFilled then stored.asInteger else .ok 0

def ofValue (stored : Value) : Outcome Clause := do
  let members ← stored.asObject
  let (condition, conditionError) ←
    conditionOf (Members.getEither members "condition_config" "conditie_config")
  let order ← orderOf (Members.getEither members "order" "volgorde")
  let numbering ← HeadingNumbering.ofValue (Members.getEither members "numbering" "nummering_type")
  return {
    code := Members.present members "code" "code"
    title := Members.present members "title" "titel"
    text := Members.present members "text" "tekst"
    order
    numbering
    isConditional := (Members.getEither members "is_conditional" "is_conditioneel").isFilled
    conditionField := Members.getEither members "condition_field" "conditie_veld"
    condition
    userTitle := Members.get members "user_title"
    userText := Members.get members "user_text"
    caseText := Members.get members "case_text"
    conditionError }

/-- Whether a value holds text that is not blank; a filled value has to be a text. -/
def isWritten (candidate : Value) : Outcome Bool :=
  if candidate.isFilled then candidate.asText.map fun content => !Text.isAllBlank content
  else .ok false

/-- The text of the case, of the user or of the library, the first that is written. -/
def effectiveText (clause : Clause) : Outcome Value := do
  if ← isWritten clause.caseText then return clause.caseText
  else if ← isWritten clause.userText then return clause.userText
  else return clause.text.orElse (.text [])

def effectiveTitle (clause : Clause) : Outcome Value := do
  if ← isWritten clause.userTitle then return clause.userTitle
  else return clause.title.orElse (.text [])

end Clause

end Covenant
