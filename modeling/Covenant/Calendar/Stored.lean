import Covenant.Calendar.Iso
import Covenant.Calendar.Written
import Covenant.Value.Basic

/-!
# Stored dates

A stored value denotes a date when its plain text does.  Text that starts with
four characters and a dash is in ISO notation; any other text is read with the
day in front of the month, and parts that it leaves out are taken from today.
-/

namespace Covenant

/-- The date in a text of at least ten characters with a dash in fifth place, or in other
notation. -/
def Date.ofText? (today : Date) (text : Text) : Option Date :=
  let text := Text.trim text
  if 10 ≤ text.length && text[4]? = some '-' then IsoDate.read? text
  else WrittenDate.read? today text

def Date.ofValue? (today : Date) (value : Value) : Option Date :=
  if value.isAbsent then none else Date.ofText? today value.plain

end Covenant
