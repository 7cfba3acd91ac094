import Covenant.Value.Basic

/-!
# Writing JSON

`Value.toJson` writes a value as a JSON text on one line.  Characters outside
ASCII stay as they are.
-/

namespace Covenant

namespace JsonWriter

def escapeChar (c : Char) : Text :=
  if c = '"' || c = '\\' then ['\\', c]
  else if c.toNat < 0x20 then '\\' :: 'u' :: Text.ofNatHex 4 c.toNat
  else [c]

def quote (text : Text) : Text := '"' :: text.flatMap escapeChar ++ ['"']

/-- A number; those that are not finite have names. -/
def number : Binary64 → Text
  | .nan => "NaN"
  | .infinite negative => if negative then "-Infinity" else "Infinity"
  | finite => finite.toText

end JsonWriter

namespace Value

mutual

def toJson : Value → Text
  | .null => "null"
  | .bool truth => if truth then "true" else "false"
  | .int number => Text.ofInt number
  | .float number => JsonWriter.number number
  | .text content => JsonWriter.quote content
  | .list items => '[' :: Text.joinWith ", " (itemsToJson items) ++ [']']
  | .object members => '{' :: Text.joinWith ", " (membersToJson members) ++ ['}']

def itemsToJson : List Value → List Text
  | [] => []
  | item :: rest => toJson item :: itemsToJson rest

def membersToJson : List (Text × Value) → List Text
  | [] => []
  | (name, value) :: rest =>
      (JsonWriter.quote name ++ ": " ++ toJson value) :: membersToJson rest

end

end Value

end Covenant
