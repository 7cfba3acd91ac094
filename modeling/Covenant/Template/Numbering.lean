import Covenant.Template.Piece
import Covenant.Text.Folded
import Covenant.Text.Case

/-!
# Article numbering

Numbering runs over text in which everything else has been resolved, so the
numbers have no gaps.  `[[ARTICLE]]` counts the articles, `[[SUBARTICLE]]` the
parts of an article, `[[ARTICLE_NUMBER]]` repeats the number of the article, and
`[[RESET_NUMBERING]]` starts over; each has a Dutch spelling too.  A reset that
stands alone on its line takes the line with it.
-/

namespace Covenant

inductive NumberingMarker where
  | article
  | subarticle
  | articleNumber
  | reset
deriving DecidableEq

namespace NumberingMarker

/-- The spellings of the markers; a marker is followed by its brackets, so that none of
them hides another. -/
def spellings : List (Text × NumberingMarker) := [
  ("article_number", .articleNumber), ("artikelnummer", .articleNumber),
  ("subarticle", .subarticle), ("subartikel", .subarticle), ("article", .article),
  ("artikel", .article), ("reset_numbering", .reset), ("nummering_reset", .reset)]

/-- What a marker does.  A word that is no spelling once it is in lower case, for a special
form of a letter, resets the numbering. -/
def ofWord (word : Text) : NumberingMarker :=
  (spellings.lookup (Text.lower word)).getD .reset

/-- A marker in brackets with the given spelling, and the text after it. -/
def spelled? (text spelling : Text) : Option (NumberingMarker × Text) := do
  let start := Text.trimStart (← Text.afterOpening? text)
  let rest ← Text.afterWord? spelling start
  let after ← Text.afterClosing? (Text.trimStart rest)
  some (ofWord (start.take spelling.length), after)

def bracketed? (text : Text) : Option (NumberingMarker × Text) :=
  spellings.findSome? fun (spelling, _) => spelled? text spelling

def isSpaceOrTab (c : Char) : Bool := c = ' ' || c = '\t'

/-- What follows the end of a line, which the end of the text is too. -/
def afterLineEnd? : Text → Option Text
  | [] => some []
  | '\n' :: rest => some rest
  | '\r' :: '\n' :: rest => some rest
  | _ => none

def resetSpellings : List Text := ["reset_numbering", "nummering_reset"]

/-- What follows a line that holds nothing but a reset marker. -/
def resetLine? (text : Text) : Option Text := do
  let start := text.dropWhile isSpaceOrTab
  let (_, rest) ← resetSpellings.findSome? (spelled? start)
  afterLineEnd? (rest.dropWhile isSpaceOrTab)

/-- Recognises a marker, or at the start of a line a whole line with a reset. -/
def recognise : Recogniser NumberingMarker := fun before text =>
  let startsLine := before.all (· = '\n')
  match if startsLine then resetLine? text else none with
  | some rest => some (.reset, text.length - rest.length)
  | none => (bracketed? text).map fun (marker, rest) => (marker, text.length - rest.length)

end NumberingMarker

structure NumberingState where
  article : Nat := 0
  subarticle : Nat := 0
  resets : Nat := 0

namespace NumberingState

def start : NumberingState := {}

def after (state : NumberingState) : NumberingMarker → NumberingState
  | .article => { state with article := state.article + 1, subarticle := 0 }
  | .subarticle => { state with subarticle := state.subarticle + 1 }
  | .articleNumber => state
  | .reset => { article := 0, subarticle := 0, resets := state.resets + 1 }

end NumberingState

namespace Numbering

/-- The heading of an article: its number, with a label if there is one. -/
def label (label : Text) (number : Nat) : Text :=
  if label.isEmpty then Text.ofNat number else label ++ ' ' :: Text.ofNat number

/-- What a marker is replaced by, once the counters have been advanced. -/
def write (label : Text) (state : NumberingState) : NumberingMarker → Text
  | .article => Numbering.label label state.article
  | .subarticle => Text.ofNat state.article ++ '.' :: Text.ofNat state.subarticle
  | .articleNumber => Text.ofNat state.article
  | .reset => []

def numberPieces (label : Text) : NumberingState → List (Piece NumberingMarker) → Text × NumberingState
  | state, [] => ([], state)
  | state, .plain c :: pieces =>
      let (rest, final) := numberPieces label state pieces
      (c :: rest, final)
  | state, .token marker _ :: pieces =>
      let state := state.after marker
      let (rest, final) := numberPieces label state pieces
      (write label state marker ++ rest, final)

/-- Numbers the markers of a text, starting with given counters. -/
def number (label : Text) (state : NumberingState) (text : Text) : Text × NumberingState :=
  numberPieces label state (Piece.cut NumberingMarker.recognise text)

end Numbering

end Covenant
