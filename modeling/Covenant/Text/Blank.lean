import Covenant.Text.Basic

/-!
# White space

A character is blank when Unicode gives it the property White_Space or makes it
one of the four information separators.  The zero-width space is not blank.
-/

namespace Covenant

/-- Unicode white space, with the information separators U+001C to U+001F. -/
def isBlank (c : Char) : Bool :=
  let n := c.toNat
  if n < 0x80 then (0x9 ≤ n && n ≤ 0xD) || (0x1C ≤ n && n ≤ 0x20)
  else n == 0x85 || n == 0xA0 || n == 0x1680 || (0x2000 ≤ n && n ≤ 0x200A) ||
    n == 0x2028 || n == 0x2029 || n == 0x202F || n == 0x205F || n == 0x3000

namespace Text

def trimStart (text : Text) : Text := text.dropWhile isBlank

def trimEnd : Text → Text
  | [] => []
  | c :: cs =>
      match trimEnd cs with
      | [] => if isBlank c then [] else [c]
      | kept => c :: kept

def trim (text : Text) : Text := trimEnd (trimStart text)

def isAllBlank (text : Text) : Bool := text.all isBlank

/-- The maximal runs of characters that are not blank. -/
def words : Text → List Text
  | [] => []
  | c :: cs =>
      if isBlank c then words cs
      else match cs, words cs with
        | d :: _, word :: rest => if isBlank d then [c] :: word :: rest else (c :: word) :: rest
        | _, rest => [c] :: rest

end Text

end Covenant
