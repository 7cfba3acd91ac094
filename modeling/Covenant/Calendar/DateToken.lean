import Covenant.Number.Reading
import Covenant.Text.Case

/-!
# Tokens of written dates

A written date is cut into words, numbers, spaces and single other characters.
A point or comma may stay inside a token while it is read; a token that turns out
to mix letters and digits, or to hold several points, is broken up at them.  The
vocabulary is English: months, weekdays, units of time, and fillers.
-/

namespace Covenant.DateToken

/-- What the characters of a token read so far look like. -/
inductive Shape where
  | word
  | number
  | dottedWord
  | dottedNumber
deriving DecidableEq

/-- Letters; a character beyond ASCII that is neither digit nor space counts as one. -/
def isLetter (c : Char) : Bool :=
  if c.toNat < 0x80 then c.isAlpha else !isDigit c && !isBlank c

/-- The shape after one more character, when it still belongs to the token; `read` holds
the token so far, last character first. -/
def Shape.extend? (shape : Shape) (read : Text) (c : Char) : Option Shape :=
  let afterPoint := read.head? = some '.'
  match shape with
  | .word => if isLetter c then some .word else if c = '.' then some .dottedWord else none
  | .number =>
      if isDigit c then some .number
      else if c = '.' || (c = ',' && 2 ≤ read.length) then some .dottedNumber
      else none
  | .dottedWord =>
      if c = '.' || isLetter c then some .dottedWord
      else if isDigit c && afterPoint then some .dottedNumber
      else none
  | .dottedNumber =>
      if c = '.' || isDigit c then some .dottedNumber
      else if isLetter c && afterPoint then some .dottedWord
      else none

/-- A token with its shape; `letters` says that the token went on after a letter. -/
structure Scanned where
  shape : Shape
  letters : Bool
  token : Text
  rest : Text

def scanFrom (shape : Shape) (letters : Bool) (read : Text) : Text → Scanned
  | [] => ⟨shape, letters, read.reverse, []⟩
  | c :: rest =>
      let letters := letters || shape == .word || shape == .dottedWord
      match shape.extend? read c with
      | some shape => scanFrom shape letters (c :: read) rest
      | none => ⟨shape, letters, read.reverse, c :: rest⟩

/-- The parts of a token around its points and commas, these included. -/
def breakAtPoints : Text → List Text
  | [] => [[]]
  | c :: rest =>
      if c = '.' || c = ',' then [] :: [c] :: breakAtPoints rest
      else match breakAtPoints rest with
        | part :: parts => (c :: part) :: parts
        | [] => [[c]]

/-- A single token, or its parts when it has to be broken up. -/
def Scanned.tokens (scanned : Scanned) : List Text :=
  let token := scanned.token
  let dotted := scanned.shape == .dottedWord || scanned.shape == .dottedNumber
  let points := token.count '.'
  let endsInPoint := token.getLast?.any fun c => c = '.' || c = ','
  if dotted && (scanned.letters || 1 < points || endsInPoint) then
    match breakAtPoints token with
    | first :: others => first :: others.filter (!·.isEmpty)
    | [] => []
  else if scanned.shape == .dottedNumber && points = 0 then
    [token.map fun c => if c = ',' then '.' else c]
  else [token]

/-- The tokens of a text; as many steps as it has characters are enough. -/
def tokensFrom : Nat → Text → List Text
  | 0, _ | _, [] => []
  | fuel + 1, c :: rest =>
      if isLetter c then
        let scanned := scanFrom .word false [c] rest
        scanned.tokens ++ tokensFrom fuel scanned.rest
      else if isDigit c then
        let scanned := scanFrom .number false [c] rest
        scanned.tokens ++ tokensFrom fuel scanned.rest
      else (if isBlank c then [' '] else [c]) :: tokensFrom fuel rest

def ofText (text : Text) : List Text :=
  let text := text.filter (· ≠ '\x00')
  tokensFrom text.length text

/-- The place of a word in a table whose rows list spellings of one meaning. -/
def indexIn? (table : List (List Text)) (token : Text) : Option Nat :=
  table.findIdx? (·.contains (Text.lower token))

def fillers : List Text :=
  [" ", ".", ",", ";", "-", "/", "'", "at", "on", "and", "ad", "m", "t", "of", "st", "nd", "rd",
    "th"]

def isFiller (token : Text) : Bool := fillers.contains (Text.lower token)

def weekday? (token : Text) : Option Nat :=
  indexIn? [["mon", "monday"], ["tue", "tuesday"], ["wed", "wednesday"], ["thu", "thursday"],
    ["fri", "friday"], ["sat", "saturday"], ["sun", "sunday"]] token

/-- The number of a month, from 1. -/
def month? (token : Text) : Option Nat :=
  (indexIn? [["jan", "january"], ["feb", "february"], ["mar", "march"], ["apr", "april"],
    ["may"], ["jun", "june"], ["jul", "july"], ["aug", "august"],
    ["sep", "sept", "september"], ["oct", "october"], ["nov", "november"],
    ["dec", "december"]] token).map (· + 1)

/-- Hours are unit 0, minutes 1 and seconds 2. -/
def timeUnit? (token : Text) : Option Nat :=
  indexIn? [["h", "hour", "hours"], ["m", "minute", "minutes"], ["s", "second", "seconds"]] token

/-- Before noon is 0, after noon is 1. -/
def halfOfDay? (token : Text) : Option Nat := indexIn? [["am", "a"], ["pm", "p"]] token

def isUniversalZone (token : Text) : Bool :=
  (["utc", "gmt", "z"] : List Text).contains (Text.lower token)

/-- A word that can name a time zone: at most five capitals, or `z`. -/
def isZoneName (token : Text) : Bool :=
  token.length ≤ 5 && (token.all (fun c => 'A' ≤ c && c ≤ 'Z') || token = "z")

end Covenant.DateToken
