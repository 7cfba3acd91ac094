import Covenant.Calendar.Date
import Covenant.Number.Reading

/-!
# Dates in ISO notation

Texts that start with a four-place year and a dash: `2024-03-01`, a week date
`2024-W09-5` or a day of the year `2024-061`, each with an optional time after
one separator character.  The time must be well formed, but only the end-of-day
notation `24:00` matters for the date: it means the next day.
-/

namespace Covenant.IsoDate

/-- The number written in a fixed place; it may be padded or signed. -/
def place? (text : Text) : Option Int := (readInteger text).toOption

def calendarDate? (text : Text) : Option ((Int × Int × Int) × Text) := do
  let year ← place? (Text.slice 0 4 text)
  let month ← place? (Text.slice 5 7 text)
  if text[7]? ≠ some '-' then none
  let day ← place? (Text.slice 8 10 text)
  some ((year, month, day), text.drop 10)

/-- The day of an ISO week; the first week holds 4 January. -/
def ofWeek? (year week day : Int) : Option Date := do
  if week < 1 || 53 < week || day < 1 || 7 < day then none
  let fourth ← Date.ofIntParts? year 1 4
  fourth.addDays? ((week - 1) * 7 + (day - 1) - fourth.weekday)

/-- A week date or a day of the year, and what follows it. -/
def numberedDate? (text : Text) : Option ((Int × Int × Int) × Text) := do
  let year ← place? (Text.slice 0 4 text)
  let (date, rest) ←
    if text[5]? = some 'W' then do
      let week ← place? (Text.slice 6 8 text)
      if text[8]? ≠ some '-' then none
      let day ← place? (Text.slice 9 10 text)
      let date ← ofWeek? year week day
      some (date, text.drop 10)
    else do
      let day ← place? (Text.slice 5 8 text)
      let first ← Date.ofIntParts? year 1 1
      if day < 1 || (if isLeapYear first.year then 366 else 365) < day then none
      let date ← first.addDays? (day - 1)
      some (date, text.drop 8)
  some ((date.year, date.month, date.day), rest)

def isZone (text : Text) : Bool :=
  text = "Z" || text = "z" || (Option.isSome do
    if text.length ≠ 3 && text.length ≠ 5 && text.length ≠ 6 then none
    if text.head? ≠ some '-' && text.head? ≠ some '+' then none
    let hours ← place? (Text.slice 1 3 text)
    let minutes ←
      if text.length = 3 then some 0
      else place? (text.drop (if text[3]? = some ':' then 4 else 3))
    if hours = 0 && minutes = 0 then some ()
    else if 59 < minutes || 23 < hours then none
    else some ())

/-- The digits after a point or a comma, and what follows them. -/
def fraction? (text : Text) : Option (Text × Text) :=
  match text with
  | mark :: rest =>
      let (digits, after) := rest.span isAsciiDigit
      if (mark = '.' || mark = ',') && !digits.isEmpty then some (digits, after) else none
  | [] => none

/-- Reads the parts of a time: hour, minute, second, fraction.  `index` is the number of
parts read, `colons` whether colons stand between them. -/
def timeParts? : Nat → Nat → Bool → Text → Option (List Int)
  | _, _, _, [] => some []
  | 0, _, _, _ :: _ => none
  | fuel + 1, index, colons, c :: rest =>
      let text := c :: rest
      if c = '-' || c = '+' || c = 'Z' || c = 'z' then
        if isZone text then some [] else none
      else if 3 < index then none
      else if index = 3 then
        match fraction? text with
        | some (digits, after) =>
            (timeParts? fuel 4 colons after).map (Text.digitsToNat (digits.take 6) :: ·)
        | none => none
      else
        let separated := index = 1 && c = ':'
        if index = 2 && colons && c ≠ ':' then none
        else
          let colons := colons || separated
          let text := if separated || (index = 2 && colons) then rest else text
          match place? (text.take 2) with
          | none => none
          | some part => (timeParts? fuel (index + 1) colons (text.drop 2)).map (part :: ·)

/-- Whether a time names the end of the day; none when it is not a time. -/
def isEndOfDay? (text : Text) : Option Bool := do
  if text.length < 2 then none
  let parts ← timeParts? 6 0 false text
  let hour := parts.getD 0 0
  let minute := parts.getD 1 0
  let second := parts.getD 2 0
  if hour = 24 then
    if parts.tail.all (· = 0) then some true else none
  else if hour < 0 || 23 < hour || minute < 0 || 59 < minute || second < 0 || 59 < second then none
  else some false

/-- Reads a text in ISO notation whose fifth character is a dash. -/
def read? (text : Text) : Option Date := do
  if !text.all (·.toNat < 0x80) then none
  let ((year, month, day), rest) ← (calendarDate? text).orElse fun _ => numberedDate? text
  let endOfDay ← if rest.isEmpty then some false else isEndOfDay? rest.tail
  let date ← Date.ofIntParts? year month day
  if endOfDay then date.addDays? 1 else some date

end Covenant.IsoDate
