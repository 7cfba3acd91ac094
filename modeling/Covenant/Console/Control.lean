import Covenant.Template.Piece
import Covenant.Text.Digit

/-!
# Control characters

Texts on the console lose the control characters that would move the cursor back
or ring the bell.  Text that is printed loses the escape sequences for colors and
the cursor.
-/

namespace Covenant.Control

def isDropped (c : Char) : Bool := [0x07, 0x08, 0x0B, 0x0C, 0x0D].contains c.toNat

def dropCodes (text : Text) : Text := text.filter fun c => !isDropped c

def isSequenceParameter (c : Char) : Bool := isAsciiDigit c || c = ';' || c = '?'

/-- Recognises an escape sequence: parameters after a bracket, and a letter that ends it. -/
def recogniseSequence : Recogniser Unit := fun _ text =>
  match text with
  | '\x1b' :: '[' :: rest =>
      let parameters := rest.takeWhile isSequenceParameter
      if (rest.drop parameters.length).head?.any Char.isAlpha then
        some ((), parameters.length + 3)
      else none
  | _ => none

def dropSequences (text : Text) : Text :=
  Piece.substitute (fun _ _ => []) (Piece.cut recogniseSequence text)

/-- The text with a line feed for every carriage return that a line feed follows. -/
def joinBreaks : Text → Text
  | [] => []
  | '\r' :: '\n' :: rest => '\n' :: joinBreaks rest
  | c :: rest => c :: joinBreaks rest

def printed (text : Text) : Text := joinBreaks (dropSequences text)

end Covenant.Control
