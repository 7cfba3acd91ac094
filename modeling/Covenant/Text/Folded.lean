import Covenant.Text.Blank

/-!
# Words in any letter case

Tags and modifiers are recognised in any letter case.  Besides its capital a
letter may have other forms: the dotless and the dotted i, the long s and the
Kelvin sign.
-/

namespace Covenant.Text

/-- Whether a character is a form of a small ASCII letter; any other character has itself
as its only form. -/
def isFormOf (letter c : Char) : Bool :=
  c = letter || c = letter.toUpper || (letter = 'i' && (c = 'ı' || c = 'İ')) ||
    (letter = 's' && c = 'ſ') || (letter = 'k' && c = '\u212A')

/-- What follows a word, given in small letters, at the start of a text in any case. -/
def afterWord? : Text → Text → Option Text
  | [], text => some text
  | letter :: word, c :: text => if isFormOf letter c then afterWord? word text else none
  | _ :: _, [] => none

/-- What follows a character at the start of a text, after white space. -/
def afterBlanksAnd? (c : Char) (text : Text) : Option Text :=
  match trimStart text with
  | d :: rest => if d = c then some rest else none
  | [] => none

/-- What follows two opening square brackets at the start of a text. -/
def afterOpening? : Text → Option Text
  | '[' :: '[' :: rest => some rest
  | _ => none

/-- What follows two closing square brackets at the start of a text. -/
def afterClosing? : Text → Option Text
  | ']' :: ']' :: rest => some rest
  | _ => none

end Covenant.Text
