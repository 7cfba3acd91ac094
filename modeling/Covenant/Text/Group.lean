import Covenant.Text.Basic

/-!
# Groups of characters

Long numbers are written in groups: amounts in threes counted from the right,
account numbers in fours counted from the left.
-/

namespace Covenant.Text

/-- Puts `separator` between groups of `size` characters; the first group has room for
`room` more. -/
def groupFrom (separator : Char) (size : Nat) : Nat → Text → Text
  | _, [] => []
  | 0, c :: cs => separator :: c :: groupFrom separator size (size - 1) cs
  | room + 1, c :: cs => c :: groupFrom separator size room cs

/-- Groups of `size` characters, the last of which may be shorter. -/
def groupLeft (separator : Char) (size : Nat) (text : Text) : Text :=
  groupFrom separator size size text

/-- Groups of `size` characters, the first of which may be shorter. -/
def groupRight (separator : Char) (size : Nat) (text : Text) : Text :=
  groupFrom separator size (if text.length % size = 0 then size else text.length % size) text

end Covenant.Text
