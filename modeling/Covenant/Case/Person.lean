import Covenant.Calendar.Stored
import Covenant.Wording.Person

/-!
# Parties and children

The people a document is about, as their stored records describe them.  Members
have English and Dutch names; a member that is empty under the first name is
looked up under the second.  Names and places are kept as stored, since a record
may hold values of any kind there.
-/

namespace Covenant

/-- The filled value under one of two names, the empty text when there is none. -/
def Members.filled (members : Members) (first second : Text) : Value :=
  ((members.get first).orElse (members.get second)).orElse (.text [])

def Members.date? (today : Date) (members : Members) (first second : Text) : Option Date :=
  Date.ofValue? today ((members.get first).orElse (members.get second))

structure Party where
  firstNames : Value
  surname : Value
  /-- The part between first names and surname, such as `van der`. -/
  insertion : Value
  callName : Value
  gender : Value
  role : Value
  birthDate : Option Date
  birthPlace : Value
  address : Value
  postalCode : Value
  city : Value

structure Child where
  id : Option Int
  firstNames : Value
  surname : Value
  insertion : Value
  callName : Value
  gender : Value
  birthDate : Option Date
  birthPlace : Value
  recognitionDate : Option Date

/-- The name used in address: the call name, or else the first of the first names. -/
def callNameOf (callName firstNames : Value) : Outcome Value :=
  if callName.isFilled then .ok callName
  else if firstNames.isFilled then do
    match Text.words (← firstNames.asText) with
    | word :: _ => return .text word
    | [] => .error .noWord
  else .ok (.text [])

namespace Party

def ofValue (today : Date) (stored : Value) : Outcome Party := do
  let members ← stored.asObject
  return {
    firstNames := Members.filled members "first_names" "voornamen"
    surname := Members.filled members "surname" "achternaam"
    insertion := Members.filled members "prefix" "tussenvoegsel"
    callName := Members.filled members "call_name" "roepnaam"
    gender := Members.filled members "gender" "geslacht"
    role := Members.filled members "role" "rol"
    birthDate := Members.date? today members "birth_date" "geboorteDatum"
    birthPlace := Members.filled members "birth_place" "geboorteplaats"
    address := Members.filled members "address" "adres"
    postalCode := Members.filled members "postal_code" "postcode"
    city := Members.filled members "city" "plaats" }

def fullName (party : Party) : Outcome Text :=
  Wording.fullName party.firstNames party.insertion party.surname

end Party

namespace Child

/-- The number in a record; null and the empty text stand for none. -/
def idOf (stored : Value) : Outcome (Option Int) :=
  if stored.isAbsent then .ok none else stored.asInteger.map some

def ofValue (today : Date) (stored : Value) : Outcome Child := do
  let members ← stored.asObject
  let id ← idOf (Members.get members "id")
  return {
    id
    firstNames := Members.filled members "first_names" "voornamen"
    surname := Members.filled members "surname" "achternaam"
    insertion := Members.filled members "prefix" "tussenvoegsel"
    callName := Members.filled members "call_name" "roepnaam"
    gender := Members.filled members "gender" "geslacht"
    birthDate := Members.date? today members "birth_date" "geboorteDatum"
    birthPlace := Members.filled members "birth_place" "geboorteplaats"
    recognitionDate := Members.date? today members "recognition_date" "erkenningsDatum" }

def fullName (child : Child) : Outcome Text :=
  Wording.fullName child.firstNames child.insertion child.surname

/-- The number of birthdays a child with a known date of birth has had. -/
def age? (reference : Date) (child : Child) : Option Int :=
  child.birthDate.map fun birth => birth.yearsFrom reference

/-- Whether the child is known to be below the age of maturity. -/
def isMinor (maturityAge : Int) (reference : Date) (child : Child) : Bool :=
  (child.age? reference).any (· < maturityAge)

end Child

end Covenant
