import Covenant.Fault
import Covenant.Text.Case
import Covenant.Text.Blank
import Covenant.Text.Group

/-!
# Names, addresses, accounts and codes

Stored records give the parts of names and addresses as values.  Parts that are
empty are left out; a part that is filled has to be a text.
-/

namespace Covenant.Wording

/-- The parts that are not blank, trimmed, with spaces between them. -/
def nameOf : List Value → Outcome (List Text)
  | [] => .ok []
  | part :: parts =>
      if part.isFilled then do
        let content ← part.asText
        let rest ← nameOf parts
        return if (Text.trim content).isEmpty then rest else Text.trim content :: rest
      else nameOf parts

/-- `Jan`, `van der` and `Berg` make `Jan van der Berg`. -/
def fullName (firstNames insertion surname : Value) : Outcome Text :=
  (nameOf [firstNames, insertion, surname]).map (Text.joinWith " ")

def surname (insertion surname : Value) : Outcome Text :=
  (nameOf [insertion, surname]).map (Text.joinWith " ")

/-- The first letter of a word as a capital, with a point. -/
def initial : Text → Text
  | [] => []
  | c :: _ => upperChar c ++ ['.']

/-- `Jan Peter` makes `J.P.`. -/
def initials (firstNames : Value) : Outcome Text :=
  if firstNames.isFilled then
    firstNames.asText.map fun content => (Text.words content).flatMap initial
  else .ok []

/-- The filled values, each of which has to be a text, with a separator between them. -/
def joinFilled (separator : Text) (values : List Value) : Outcome Text := do
  let parts ← (values.filter Value.isFilled).mapM fun
    | .text content => .ok content
    | value => .error (.notJoinable value.kindName)
  return Text.joinWith separator parts

/-- Street, then postal code and city: `Kerkstraat 1, 1234 AB Amsterdam`. -/
def address (street postalCode city : Value) : Outcome Text := do
  let place ← joinFilled " " [postalCode, city]
  joinFilled ", " [street, .text place]

def accountNumber (number : Text) : Text :=
  Text.groupLeft ' ' 4 (Text.upper (number.filter fun c => !isBlank c))

def accountNumberOf (value : Value) : Outcome Text :=
  if value.isFilled then
    match value with
    | .text number => .ok (accountNumber number)
    | other => .error (.notJoinable other.kindName)
  else .ok []

/-- `doorlopend_krediet` becomes `Doorlopend krediet`. -/
def code (code : Text) : Text := Text.capitalize (Text.trim (Text.replaceChar '_' " " code))

def codeOf (value : Value) : Outcome Text :=
  if value.isFilled then value.asText.map code else .ok []

end Covenant.Wording
