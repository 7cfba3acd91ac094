import Covenant.Number.Shortest
import Covenant.Text.Quoted

/-!
# Values of stored data

Case data, contexts and stored conditions are trees of values with ordered
object members.  A value has three texts: the shown form, which quotes texts;
the plain form, which does not; and the stored form, in which null is empty and
the truth values are written `true` and `false`.
-/

namespace Covenant

inductive Value where
  | null
  | bool (truth : Bool)
  | int (number : Int)
  | float (number : Binary64)
  | text (content : Text)
  | list (items : List Value)
  | object (members : List (Text × Value))

instance : Inhabited Value := ⟨.null⟩

/-- Object members in order; the names are distinct. -/
abbrev Members := List (Text × Value)

namespace Members

/-- Gives a name its value, in place when the name is present. -/
def insert (name : Text) (value : Value) : Members → Members
  | [] => [(name, value)]
  | (other, old) :: rest =>
      if other = name then (name, value) :: rest else (other, old) :: insert name value rest

def ofPairs (pairs : List (Text × Value)) : Members :=
  pairs.foldl (fun members (name, value) => insert name value members) []

/-- The value of a name; null when the name is missing. -/
def get (members : Members) (name : Text) : Value := (members.lookup name).getD .null

/-- The value of the first of two names that is present, null when neither is. -/
def getEither (members : Members) (first second : Text) : Value :=
  (members.lookup first).getD (get members second)

end Members

namespace Value

/-- Neither null, nor false, nor zero, nor empty. -/
def isFilled : Value → Bool
  | .null => false
  | .bool truth => truth
  | .int number => number != 0
  | .float number => !number.isZero
  | .text content => !content.isEmpty
  | .list items => !items.isEmpty
  | .object members => !members.isEmpty

/-- The first value when it is filled, otherwise the second. -/
def orElse (first second : Value) : Value := if first.isFilled then first else second

def isNull : Value → Bool
  | .null => true
  | _ => false

/-- Null and the empty text stand for a value that was not given. -/
def isAbsent : Value → Bool
  | .null => true
  | .text content => content.isEmpty
  | _ => false

/-- The word for the kind of a value in messages. -/
def kindName : Value → Text
  | .null => "NoneType"
  | .bool _ => "bool"
  | .int _ => "int"
  | .float _ => "float"
  | .text _ => "str"
  | .list _ => "list"
  | .object _ => "dict"

mutual

def shown : Value → Text
  | .null => "None"
  | .bool true => "True"
  | .bool false => "False"
  | .int number => Text.ofInt number
  | .float number => number.toText
  | .text content => Text.quoted content
  | .list items => '[' :: Text.joinWith ", " (shownItems items) ++ [']']
  | .object members => '{' :: Text.joinWith ", " (shownMembers members) ++ ['}']

def shownItems : List Value → List Text
  | [] => []
  | item :: items => shown item :: shownItems items

def shownMembers : List (Text × Value) → List Text
  | [] => []
  | (name, value) :: members => (Text.quoted name ++ ": " ++ shown value) :: shownMembers members

end

/-- The plain form: a text is itself, anything else is shown. -/
def plain : Value → Text
  | .text content => content
  | value => value.shown

/-- The form in which contexts and conditions hold a value. -/
def stored : Value → Text
  | .null => []
  | .bool true => "true"
  | .bool false => "false"
  | value => value.plain

end Value

end Covenant
