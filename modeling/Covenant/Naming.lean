import Covenant.Text.Blank
import Covenant.Text.Case

/-!
# Naming conventions

Names are written `has_children` or `HasChildren`.  `Naming.pascal` and
`Naming.snake` convert between the two, and `Naming.alias?` gives the other
spelling of a name that has one.
-/

namespace Covenant.Naming

def isLower (c : Char) : Bool := 'a' ≤ c && c ≤ 'z'

def isUpper (c : Char) : Bool := 'A' ≤ c && c ≤ 'Z'

def isNameDigit (c : Char) : Bool := '0' ≤ c && c ≤ '9'

/-- The characters a name may have after its first letter. -/
def isNameChar (c : Char) : Bool := isLower c || isUpper c || isNameDigit c || c = '_'

/-- `has_children` becomes `HasChildren`. -/
def pascal (name : Text) : Text :=
  (Text.splitAt '_' name).flatMap fun
    | [] => []
    | c :: rest => upperChar c ++ Text.lower rest

/-- A new word starts at a capital after a small letter or a digit, and at the last capital
of a row that a small letter follows. -/
def startsWord (before : Option Char) (c : Char) (after : Option Char) : Bool :=
  isUpper c && before.any fun b => isLower b || isNameDigit b || (isUpper b && after.any isLower)

/-- The name with an underscore in front of every word but the first. -/
def separateWords : Option Char → Text → Text
  | _, [] => []
  | before, c :: rest =>
      if startsWord before c rest.head? then '_' :: c :: separateWords (some c) rest
      else c :: separateWords (some c) rest

/-- `HasChildren` becomes `has_children`. -/
def snake (name : Text) : Text := Text.lower (separateWords none name)

/-- A letter and then letters, digits and underscores; a line feed at the end is allowed. -/
def isIdentifier (name : Text) : Bool :=
  match name with
  | [] => false
  | c :: rest =>
      let body := if rest.getLast? = some '\n' then rest.dropLast else rest
      (isLower c || isUpper c) && body.all isNameChar

/-- The spelling of a name in the other convention, when it differs. -/
def alias? (name : Text) : Option Text :=
  if isIdentifier name then
    let other := if name.contains '_' then pascal name else snake name
    if Text.sameLower other name then none else some other
  else none

/-- The name with an underscore between a small letter or digit and a capital. -/
def separateCapitals : Option Char → Text → Text
  | _, [] => []
  | before, c :: rest =>
      if isUpper c && before.any (fun b => isLower b || isNameDigit b) then
        '_' :: c :: separateCapitals (some c) rest
      else c :: separateCapitals (some c) rest

/-- `bankNaam` becomes `BANK_NAAM`. -/
def variableSuffix (key : Text) : Text := Text.upper (separateCapitals none key)

end Covenant.Naming
