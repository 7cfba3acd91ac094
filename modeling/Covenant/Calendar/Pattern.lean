import Covenant.Calendar.Date
import Covenant.Text.Case
import Covenant.Text.Digit

/-!
# Dates by pattern

A pattern is copied with its directives replaced: `%d` is the day, `%m` the
month, `%Y` the year, and so on for the other directives of the usual date
patterns, with English names.  The time of a date is midnight, and it has no
time zone.  Between the percent sign and the letter a directive may have flags,
which choose the padding or capitals, a width, and a modifier that some letters
refuse.  What is no directive is copied, in its width.
-/

namespace Covenant.DatePattern

def weekdayNames : List Text :=
  ["Monday", "Tuesday", "Wednesday", "Thursday", "Friday", "Saturday", "Sunday"]

def monthNames : List Text :=
  ["January", "February", "March", "April", "May", "June", "July", "August", "September",
    "October", "November", "December"]

/-- The day of the week, counted from 0 for Sunday. -/
def sundayIndex (date : Date) : Nat := (date.weekday + 1) % 7

/-- The number of the week when weeks start on the day with the given index. -/
def weekOfYear (date : Date) (index : Nat) : Nat := (date.dayOfYear + 6 - index) / 7

def isoWeek (date : Date) : Nat × Nat :=
  let week (year : Nat) (dayOfYear : Int) : Int :=
    let firstWeekday := (Date.daysBeforeYear year + 1 + 6) % 7
    let shift : Int := if firstWeekday ≤ 3 then firstWeekday else (firstWeekday : Int) - 7
    (dayOfYear - 1 + shift).fdiv 7 + 1
  let yearDays (year : Nat) : Nat := if isLeapYear year then 366 else 365
  let number := week date.year date.dayOfYear
  if number < 1 then
    (date.year - 1, (week (date.year - 1) (yearDays (date.year - 1) + date.dayOfYear)).toNat)
  else if number = 53 && week (date.year + 1) (date.dayOfYear - (yearDays date.year : Int)) = 1 then
    (date.year + 1, 1)
  else (date.year, number.toNat)

/-- Seconds from the beginning of 1970, in universal time. -/
def epochSeconds (date : Date) : Int := ((date.dayNumber : Int) - 719163) * 86400

/-- What a directive writes: nothing, a text in its width, a name and the form of it that the
flag `#` asks for, a number with its usual number of places and the character that fills them,
or other patterns. -/
inductive Item where
  | nothing
  | text (text : Text)
  | name (name changed : Text)
  | number (places value : Nat) (fill : Char)
  | pattern (pattern : Text)

def item? (date : Date) (letter : Char) : Option Item :=
  let number (places value : Nat) : Option Item := some (.number places value '0')
  let name (name : Text) : Option Item := some (.name name (Text.upper name))
  match letter with
  | 'a' => name ((weekdayNames.getD date.weekday []).take 3)
  | 'A' => name (weekdayNames.getD date.weekday [])
  | 'b' | 'h' => name ((monthNames.getD (date.month - 1) []).take 3)
  | 'B' => name (monthNames.getD (date.month - 1) [])
  | 'c' => some (.pattern "%a %b %e %H:%M:%S %Y")
  | 'C' => number 1 (date.year / 100)
  | 'd' => number 2 date.day
  | 'D' | 'x' => some (.pattern "%m/%d/%y")
  | 'e' => some (.number 2 date.day ' ')
  | 'F' => some (.pattern "%Y-%m-%d")
  | 'g' => number 2 ((isoWeek date).1 % 100)
  | 'G' => number 1 (isoWeek date).1
  | 'H' => number 2 0
  | 'I' => number 2 12
  | 'j' => number 3 date.dayOfYear
  | 'k' => some (.number 2 0 ' ')
  | 'l' => some (.number 2 12 ' ')
  | 'm' => number 2 date.month
  | 'M' | 'S' => number 2 0
  | 'n' => some (.text ['\n'])
  | 'p' => some (.name "AM" "am")
  | 'P' => some (.text "am")
  | 'r' => some (.pattern "%I:%M:%S %p")
  | 'R' => some (.pattern "%H:%M")
  | 's' => some (.text (Text.ofInt (epochSeconds date)))
  | 't' => some (.text ['\t'])
  | 'T' | 'X' => some (.pattern "%H:%M:%S")
  | 'u' => number 1 (date.weekday + 1)
  | 'U' => number 2 (weekOfYear date (sundayIndex date))
  | 'V' => number 2 (isoWeek date).2
  | 'w' => number 1 (sundayIndex date)
  | 'W' => number 2 (weekOfYear date date.weekday)
  | 'y' => number 2 (date.year % 100)
  | 'Y' => number 1 date.year
  | 'z' => some .nothing
  | 'Z' => some (.text [])
  | '%' => some (.text ['%'])
  | _ => none

/-- The letters that refuse a modifier: `E` for other eras, `O` for other digits. -/
def refusing (modifier : Char) : Text :=
  "%aADF" ++ (if modifier = 'E' then "bBdeghGHIjklmMSUVwW" else "cxXY").toList

structure Options where
  padding : Option Char := none
  capitals : Bool := false
  changed : Bool := false
  width : Nat := 0

def isFlag (c : Char) : Bool := c = '_' || c = '-' || c = '0' || c = '^' || c = '#'

def Options.withFlag (options : Options) (c : Char) : Options :=
  if c = '^' then { options with capitals := true }
  else if c = '#' then { options with changed := true }
  else { options with padding := some c }

def fillTo (width : Nat) (fill : Char) (text : Text) : Text :=
  List.replicate (width - text.length) fill ++ text

/-- The text in its width; without padding an empty text stays empty. -/
def Options.fill (options : Options) (text : Text) : Text :=
  if text.isEmpty && options.padding = some '-' then []
  else fillTo options.width (if options.padding = some '0' then '0' else ' ') text

/-- The text in its width, in capitals if a flag asks for them. -/
def Options.write (options : Options) (text : Text) : Text :=
  options.fill (if options.capitals then text.map upperLetter else text)

def Options.writeNumber (options : Options) (places value : Nat) (fill : Char) : Text :=
  let width := max places options.width
  match options.padding with
  | some '-' => options.fill (Text.ofNat value)
  | some '_' => fillTo width ' ' (Text.ofNat value)
  | some _ => fillTo width '0' (Text.ofNat value)
  | none => fillTo width fill (Text.ofNat value)

/-- Writes an item; a pattern that an item stands for is written by `inner`. -/
def Options.writeItem (options : Options) (inner : Text → Text) : Item → Text
  | .nothing => []
  | .text text => options.fill text
  | .name name changed => if options.changed then options.fill changed else options.write name
  | .number places value fill => options.writeNumber places value fill
  | .pattern pattern => options.write (inner pattern)

/-- What stands between a percent sign and the end of its directive. -/
structure Directive where
  options : Options
  modifier : Option Char
  letter : Option Char
  source : Text

/-- The directive whose percent sign stands in front of the text; no width counts that is greater
than `limit`. -/
def readDirective (limit : Nat) (text : Text) : Directive :=
  let (flags, rest) := text.span isFlag
  let (width, rest) := rest.span isAsciiDigit
  let modifier := rest.head?.filter fun c => c = 'E' || c = 'O'
  let letter := (rest.drop modifier.toList.length).head?
  { options := { flags.foldl Options.withFlag {} with width := min limit (Text.digitsToNat width) }
    modifier, letter
    source := flags ++ width ++ modifier.toList ++ letter.toList }

/-- The item that a directive stands for, unless its letter has no meaning or refuses the
modifier. -/
def Directive.item? (date : Date) (directive : Directive) : Option Item := do
  let letter ← directive.letter
  if directive.modifier.any fun modifier => (refusing modifier).contains letter then none
  else DatePattern.item? date letter

/-- The options for copying a directive.  The short names of months take `#` for capitals even
where they refuse a modifier. -/
def Directive.copyOptions (directive : Directive) : Options :=
  let isShortMonth := directive.letter = some 'b' || directive.letter = some 'h'
  { directive.options with
    capitals := directive.options.capitals || (directive.options.changed && isShortMonth) }

/-- Writes a directive.  One without a meaning is copied from its last percent sign on. -/
def Directive.write (date : Date) (inner : Text → Text) (directive : Directive) : Text :=
  match directive.item? date with
  | some item => directive.options.writeItem inner item
  | none =>
      directive.copyOptions.write
        (if directive.letter = some '%' then ['%'] else '%' :: directive.source)

/-- Writes a pattern after skipping the characters of a directive already written. -/
def renderAfter (date : Date) (limit : Nat) (inner : Text → Text) : Nat → Text → Text
  | _, [] => []
  | skip + 1, _ :: rest => renderAfter date limit inner skip rest
  | 0, c :: rest =>
      if c ≠ '%' then c :: renderAfter date limit inner 0 rest
      else
        let directive := readDirective limit rest
        directive.write date inner ++ renderAfter date limit inner directive.source.length rest

/-- The pattern up to a null character, with the parts of a second and the time zone written
where a percent sign stands directly in front of the letter. -/
def withoutZone : Text → Text
  | [] => []
  | '%' :: c :: rest =>
      if c = 'z' || c = 'Z' then withoutZone rest
      else if c = 'f' then "000000" ++ withoutZone rest
      else if c = '\x00' then ['%']
      else '%' :: c :: withoutZone rest
  | c :: rest => if c = '\x00' then [] else c :: withoutZone rest

/-- The least power of two from 1024 on that is at least `size`. -/
def roomFor (size : Nat) : Nat := if size ≤ 1024 then 1024 else Nat.pow 2 (Nat.log2 (size - 1) + 1)

/-- The date written by a pattern, unless it takes up far more room than the pattern does; then
nothing is written.  The patterns that directives stand for contain none that stand for patterns
themselves. -/
def render (pattern : Text) (date : Date) : Text :=
  let pattern := withoutZone pattern
  let room := roomFor (256 * pattern.length)
  let written := renderAfter date room (renderAfter date room id 0) 0 pattern
  if written.length < room then written else []

end Covenant.DatePattern
