import Covenant.Template.Piece

/-!
# Blank lines

Three or more line breaks in a row become two, so that taking a block out of a
text leaves one blank line at most.
-/

namespace Covenant.BlankLines

/-- The numbers of line breaks and of characters in the run of line breaks that a text
starts with. -/
def run : Text → Nat × Nat
  | '\n' :: rest =>
      let (breaks, length) := run rest
      (breaks + 1, length + 1)
  | '\r' :: '\n' :: rest =>
      let (breaks, length) := run rest
      (breaks + 1, length + 2)
  | _ => (0, 0)

def recognise : Recogniser Unit := fun _ text =>
  let (breaks, length) := run text
  if 3 ≤ breaks then some ((), length) else none

/-- The text with every long run of line breaks exchanged for one blank line. -/
def collapse (text : Text) : Text :=
  Piece.substitute (fun _ _ => "\n\n") (Piece.cut recognise text)

end Covenant.BlankLines
