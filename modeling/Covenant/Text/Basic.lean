/-!
# Text

Templates, values and messages are lists of characters.  Positions and lengths
therefore count code points, and every pass over a text is a recursion on a
list.  String literals coerce to texts, so fixed wording is written as usual.
-/

namespace Covenant

abbrev Text := List Char

instance : Coe String Text := ⟨String.toList⟩

namespace Text

/-- The characters from position `start` up to, and not including, `stop`. -/
def slice (start stop : Nat) (text : Text) : Text :=
  (text.drop start).take (stop - start)

/-- The pieces of a text between the occurrences of a separator character. -/
def splitAt (separator : Char) : Text → List Text
  | [] => [[]]
  | c :: cs =>
      match splitAt separator cs with
      | [] => [[c]]
      | piece :: pieces =>
          if c = separator then [] :: piece :: pieces else (c :: piece) :: pieces

/-- The lines of a text: its pieces between line feeds. -/
def lines (text : Text) : List Text := splitAt '\n' text

/-- The texts one after the other with `separator` between neighbours. -/
def joinWith (separator : Text) (pieces : List Text) : Text :=
  separator.intercalate pieces

def unlines (pieces : List Text) : Text := joinWith ['\n'] pieces

/-- The text with every kind of line break as a line feed. -/
def normalizeBreaks : Text → Text
  | [] => []
  | '\r' :: '\n' :: rest => '\n' :: normalizeBreaks rest
  | '\r' :: rest => '\n' :: normalizeBreaks rest
  | c :: rest => c :: normalizeBreaks rest

def replaceChar (old : Char) (new : Text) (text : Text) : Text :=
  text.flatMap fun c => if c = old then new else [c]

def removeChar (unwanted : Char) (text : Text) : Text :=
  text.filter (· ≠ unwanted)

/-- Whether `needle` occurs somewhere in the text. -/
def hasInfix (needle : Text) : Text → Bool
  | [] => needle.isEmpty
  | c :: cs => needle.isPrefixOf (c :: cs) || hasInfix needle cs

/-- The parts before and after the first occurrence of `needle`. -/
def splitFirst? (needle : Text) : Text → Option (Text × Text)
  | [] => if needle.isEmpty then some ([], []) else none
  | c :: cs =>
      if needle.isPrefixOf (c :: cs) then some ([], (c :: cs).drop needle.length)
      else (splitFirst? needle cs).map fun (before, after) => (c :: before, after)

def ofNat (n : Nat) : Text := Nat.toDigits 10 n

def ofInt : Int → Text
  | .ofNat n => ofNat n
  | .negSucc n => '-' :: ofNat (n + 1)

/-- A number with at least `width` digits, filled up with zeros on the left. -/
def ofNatPadded (width n : Nat) : Text :=
  let digits := ofNat n
  List.replicate (width - digits.length) '0' ++ digits

/-- The text in lower-case hexadecimal, with at least `width` digits. -/
def ofNatHex (width n : Nat) : Text :=
  let digits := Nat.toDigits 16 n
  List.replicate (width - digits.length) '0' ++ digits

def le : Text → Text → Bool
  | [], _ => true
  | _ :: _, [] => false
  | c :: cs, d :: ds => c.toNat < d.toNat || (c == d && le cs ds)

end Text

end Covenant
