import Covenant.Number.Reading
import Covenant.Value.Basic

/-!
# Faults

A request fails only for the reasons listed here: stored data of the wrong kind,
numbers that cannot be converted, names that are missing, and writes to a frozen
context.  `Fault.message` gives the wording of each.
-/

namespace Covenant

inductive Fault where
  | frozenContext
  /-- A context has no such name, given in lower case. -/
  | unknownName (name : Text)
  /-- The first entry of an empty context. -/
  | emptyContext
  | missingMember (member : Value)
  /-- A value that is not a text where only a text will do. -/
  | notText (kind : Text)
  /-- A value that is not an object where only an object will do. -/
  | notObject (kind : Text)
  /-- A name of white space only has no first word. -/
  | noWord
  /-- Texts are put together with a value that is not a text. -/
  | notJoinable (kind : Text)
  | notIterable (kind : Text)
  | notSubscriptable (kind : Text)
  | textIndexed
  | listIndexed
  | unhashable (kind : Text)
  | notPair (index : Nat)
  | pairLength (index length : Nat)
  | notANumber (kind : Text)
  | badInteger (text : Text)
  | tooManyDigits (count : Nat)
  | nanToInteger
  | infinityToInteger
  | integerTooLarge
  /-- An integer that does not fit the type of a size. -/
  | sizeTooLarge (type : Text)
  /-- More digits are asked for than an integer may have. -/
  | precisionTooLarge
  /-- An amount of more digits than a decimal may have. -/
  | amountTooLarge
  | textTooLong
  | characterOutOfRange
  /-- A variable that is to be set has an equals sign in its name. -/
  | badVariableName
  /-- A variable that is to be set has a null character in it. -/
  | nullInVariable
  | templateMismatch
  | badTemplate (message : Text)
  | unwritableText

namespace Fault

/-- The wording of a fault. -/
def message : Fault → Text
  | frozenContext => "ContextMap is frozen"
  | unknownName name => Text.quoted name
  | emptyContext => []
  | missingMember member => member.shown
  | notText kind => '\'' :: kind ++ "' object is not a text"
  | notObject kind => '\'' :: kind ++ "' object has no members"
  | noWord => "list index out of range"
  | notJoinable kind => "sequence item 0: expected str instance, " ++ kind ++ " found"
  | notIterable kind => '\'' :: kind ++ "' object is not iterable"
  | notSubscriptable kind => '\'' :: kind ++ "' object is not subscriptable"
  | textIndexed => "string indices must be integers, not 'str'"
  | listIndexed => "list indices must be integers or slices, not str"
  | unhashable kind => "unhashable type: '" ++ kind ++ "'"
  | notPair index =>
      "cannot convert dictionary update sequence element #" ++ Text.ofNat index ++ " to a sequence"
  | pairLength index length =>
      "dictionary update sequence element #" ++ Text.ofNat index ++ " has length " ++
        Text.ofNat length ++ "; 2 is required"
  | notANumber kind =>
      "int() argument must be a string, a bytes-like object or a real number, not '" ++ kind ++ "'"
  | badInteger text => "invalid literal for int() with base 10: " ++ (Text.quoted text).take 200
  | tooManyDigits count =>
      "Exceeds the limit (" ++ Text.ofNat maxIntegerDigits ++
        " digits) for integer string conversion: value has " ++ Text.ofNat count ++
        " digits; use sys.set_int_max_str_digits() to increase the limit"
  | nanToInteger => "cannot convert float NaN to integer"
  | infinityToInteger => "cannot convert float infinity to integer"
  | integerTooLarge => "int too large to convert to float"
  | sizeTooLarge type => "Python int too large to convert to C " ++ type
  | precisionTooLarge => "precision too large"
  | amountTooLarge => "format specification exceeds internal limits of _decimal"
  | textTooLong => []
  | characterOutOfRange => "%c arg not in range(0x110000)"
  | badVariableName => "illegal environment variable name"
  | nullInVariable => "embedded null byte"
  | templateMismatch => "not enough arguments for format string"
  | badTemplate message => message
  | unwritableText =>
      "All strings must be XML compatible: Unicode or ASCII, no NULL bytes or control characters"

end Fault

def greatestTextLength : Nat := 10000000000

abbrev Outcome (α : Type) := Except Fault α

namespace Value

def asText : Value → Outcome Text
  | .text content => .ok content
  | value => .error (.notText value.kindName)

def asObject : Value → Outcome Members
  | .object members => .ok members
  | value => .error (.notObject value.kindName)

/-- The parts of a value that has parts: items, characters or member names. -/
def parts : Value → Outcome (List Value)
  | .list items => .ok items
  | .text content => .ok (content.map fun c => .text [c])
  | .object members => .ok (members.map fun (name, _) => .text name)
  | value => .error (.notIterable value.kindName)

def integerOfText (content : Text) : Outcome Int :=
  match readInteger content with
  | .ok number => .ok number
  | .error .notANumeral => .error (.badInteger content)
  | .error (.tooManyDigits count) => .error (.tooManyDigits count)

def integerOfFloat : Binary64 → Outcome Int
  | .nan => .error .nanToInteger
  | .infinite _ => .error .infinityToInteger
  | .finite negative mantissa exponent => .ok (Binary64.truncate negative mantissa exponent)

/-- The integer of a number, a truth value or a text. -/
def asInteger : Value → Outcome Int
  | .bool truth => .ok truth.toInt
  | .int number => .ok number
  | .float number => integerOfFloat number
  | .text content => integerOfText content
  | value => .error (.notANumber value.kindName)

end Value

end Covenant
