import Covenant.Fault
import Covenant.Text.Blank
import Covenant.Text.Case

/-!
# Agreement in number and gender

Texts about children speak of one child or of several.  The plural never shows a
gender; the singular does when the gender is known, and otherwise names both.
-/

namespace Covenant.Wording

inductive Gender where
  | male
  | female
deriving DecidableEq

namespace Gender

def maleWords : List Text := ["m", "man", "male"]

def femaleWords : List Text := ["v", "vrouw", "f", "female"]

def ofText? (word : Text) : Option Gender :=
  let word := Text.lower (Text.trim word)
  if word ∈ maleWords then some .male
  else if word ∈ femaleWords then some .female
  else none

/-- The gender in a stored value, which has to be a text unless it is empty. -/
def ofValue? (value : Value) : Outcome (Option Gender) :=
  if value.isFilled then value.asText.map ofText? else .ok none

end Gender

/-- The verbs that agree with the number of children, in the singular and the plural. -/
def verbForms : List (Text × Text) := [
  ("heeft", "hebben"), ("is", "zijn"), ("verblijft", "verblijven"), ("kan", "kunnen"),
  ("zal", "zullen"), ("moet", "moeten"), ("wordt", "worden"), ("blijft", "blijven"),
  ("gaat", "gaan"), ("komt", "komen"), ("zou", "zouden"), ("wil", "willen"), ("mag", "mogen"),
  ("doet", "doen"), ("krijgt", "krijgen"), ("neemt", "nemen"), ("brengt", "brengen"),
  ("haalt", "halen")]

def agree {α : Type} (plural : Bool) (one several : α) : α := if plural then several else one

def objectPronoun (plural : Bool) (gender : Option Gender) : Text :=
  agree plural
    (match gender with
      | some .male => "hem"
      | some .female => "haar"
      | none => "hem/haar") "hen"

def subjectPronoun (plural : Bool) (gender : Option Gender) : Text :=
  agree plural
    (match gender with
      | some .male => "hij"
      | some .female => "zij"
      | none => "hij/zij") "ze"

def possessivePronoun (plural : Bool) : Text := agree plural "zijn/haar" "hun"

def childTerm (plural : Bool) : Text := agree plural "ons kind" "onze kinderen"

/-- The names that are not empty, with commas and `en` before the last. -/
def enumeration (names : List Text) : Text :=
  let names := names.filter (!·.isEmpty)
  match names.getLast? with
  | none => []
  | some last =>
      if names.length = 1 then last else Text.joinWith ", " names.dropLast ++ " en " ++ last

/-- The enumeration of the values that are filled.  A single one may be of any kind; several
have to be texts. -/
def enumerationOf (parts : List Value) : Outcome Value :=
  match parts.filter Value.isFilled with
  | [] => .ok (.text [])
  | [part] => .ok part
  | parts => do
      let names ← parts.mapM fun
        | .text name => .ok name
        | part => .error (.notJoinable part.kindName)
      return .text (enumeration names)

end Covenant.Wording
