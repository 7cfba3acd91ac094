import Covenant.Calendar.Pattern
import Covenant.Calendar.Stored
import Covenant.Settings

/-!
# Dates in words

A date is written out as in `15 januari 2024` unless a pattern is given.
-/

namespace Covenant.Wording

def date (date : Date) : Text :=
  Text.ofNat date.day ++ ' ' :: Settings.monthNames.getD (date.month - 1) [] ++
    ' ' :: Text.ofNat date.year

/-- The date written out; nothing for a date that is not known. -/
def date? (known : Option Date) : Text := (known.map date).getD []

/-- The date by a pattern, if there is a pattern. -/
def dateBy (pattern : Value) (known : Option Date) : Outcome Text :=
  match known with
  | none => .ok []
  | some known =>
      if pattern.isFilled then
        match pattern with
        | .text pattern => .ok (DatePattern.render pattern known)
        | other => .error (.notJoinable other.kindName)
      else .ok (date known)

end Covenant.Wording
