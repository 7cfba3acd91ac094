import Covenant.Text.Basic
import Covenant.Text.CaseTable

/-!
# Upper and lower case of texts

`Text.lower` and `Text.upper` are the full Unicode mappings: a character may
become several, and a capital sigma at the end of a word becomes the final form
of the small letter.
-/

namespace Covenant

/-- The lower-case form of a character that does not depend on its neighbours. -/
def lowerChar (c : Char) : Text :=
  if c.toNat < 0x80 then [c.toLower]
  else if c = 'İ' then ['i', '\u0307']
  else [Char.ofNat (CaseTable.shifted CaseTable.lowerShifts c.toNat)]

def upperChar (c : Char) : Text :=
  if c.toNat < 0x80 then [c.toUpper]
  else match CaseTable.upperExpansions.lookup c.toNat with
    | some codes => codes.map Char.ofNat
    | none => [Char.ofNat (CaseTable.shifted CaseTable.upperShifts c.toNat)]

/-- The single character that is the upper-case form, if there is one. -/
def upperLetter (c : Char) : Char :=
  match upperChar c with
  | [capital] => capital
  | _ => Char.ofNat (CaseTable.shifted CaseTable.iotaShifts c.toNat)

def isCaseIgnorable (c : Char) : Bool := CaseTable.inRanges CaseTable.caseIgnorable c.toNat

/-- Letters with an upper or lower case, those that are ignorable left out. -/
def isCased (c : Char) : Bool :=
  if c.toNat < 0x80 then c.isAlpha else CaseTable.inRanges CaseTable.cased c.toNat

/-- Whether the first character that is not ignorable is a letter with case. -/
def startsCased (text : Text) : Bool :=
  match text.dropWhile isCaseIgnorable with
  | [] => false
  | c :: _ => isCased c

namespace Text

/-- Lower case of `text` when `before` holds the preceding characters, last first. -/
def lowerAfter : Text → Text → Text
  | _, [] => []
  | before, c :: cs =>
      (if c = 'Σ' then
        [if startsCased before && !startsCased cs then 'ς' else 'σ']
      else lowerChar c) ++ lowerAfter (c :: before) cs

def lower (text : Text) : Text := lowerAfter [] text

def upper (text : Text) : Text := text.flatMap upperChar

/-- The text with its first character in upper case. -/
def capitalize : Text → Text
  | [] => []
  | c :: cs => upperChar c ++ cs

def sameLower (first second : Text) : Bool := lower first == lower second

end Text

end Covenant
