import Covenant.Calendar.Date
import Covenant.Calendar.DateToken

/-!
# Written dates, day first

Dates as people write them: `5-12-2020`, `15 January 2024`, `Mon 3 Feb '24`, with
an optional time that has to make sense but does not change the date.  Of three
numbers the day comes first; a text that starts with the year has the day second
when its last number can be a month.  Parts that are missing come from the given
day, and years of two digits lie within fifty years of it.
-/

namespace Covenant.WrittenDate

/-- The numbers of a date in the order of writing, with what is known of their roles. -/
structure Numbers where
  values : List Int := []
  yearAt : Option Nat := none
  monthAt : Option Nat := none
  fullYear : Bool := false

inductive Role where
  | year
  | month
deriving DecidableEq

/-- Adds a number; no role is given twice. -/
def Numbers.add? (numbers : Numbers) (value : Int) (role : Option Role) (fullYear : Bool) :
    Option Numbers :=
  let place := numbers.values.length
  let added := { numbers with
    values := numbers.values ++ [value]
    fullYear := numbers.fullYear || fullYear }
  match role with
  | none => some added
  | some .year => if numbers.yearAt.isSome then none else some { added with yearAt := some place }
  | some .month =>
      if numbers.monthAt.isSome then none else some { added with monthAt := some place }

/-- Adds a number given by its digits; three or more of them make a year. -/
def Numbers.addDigits? (numbers : Numbers) (digits : Text) (role : Option Role) :
    Option Numbers := do
  let long := !digits.isEmpty && digits.all isDigit && 2 < digits.length
  if long && role = some .month then none
  let value ← (readInteger digits).toOption
  numbers.add? value (if long then some .year else role) long

def Numbers.addMonth? (numbers : Numbers) (month : Nat) : Option Numbers :=
  numbers.add? month (some .month) false

/-- The whole part of a decimal that is not negative. -/
def wholePart (number : Decimal) : Nat :=
  if 0 ≤ number.exponent then number.coefficient * Nat.pow 10 number.exponent.toNat
  else number.coefficient / Nat.pow 10 (-number.exponent).toNat

def hasFraction (number : Decimal) : Bool :=
  number.exponent < 0 && number.coefficient % Nat.pow 10 (-number.exponent).toNat != 0

/-- Sixty times the fraction of a decimal, rounded down. -/
def sixtieths (number : Decimal) : Nat :=
  let unit := Nat.pow 10 (-number.exponent).toNat
  60 * (number.coefficient % unit) / unit

/-- Adds a number as it was measured; above a hundred it is a year. -/
def Numbers.addDecimal? (numbers : Numbers) (number : Decimal) : Option Numbers :=
  let whole := wholePart number
  let isYear := 100 < whole || (whole = 100 && hasFraction number)
  numbers.add? whole (if isYear then some .year else none) isYear

/-- Whether a number may be the day, given what is known of month and year. -/
def Numbers.admitsDay (numbers : Numbers) (number : Decimal) : Bool :=
  let at? (place : Option Nat) : Option Int := place.bind (numbers.values[·]?)
  let most : Nat :=
    match at? numbers.monthAt with
    | none => 31
    | some month => monthLength ((at? numbers.yearAt).getD 2000).toNat month.toNat
  let whole := wholePart number
  1 ≤ whole && (whole < most || (whole = most && !hasFraction number))

structure Parts where
  year : Option Int := none
  month : Option Int := none
  day : Option Int := none

/-- Two numbers, one of which may be a month that was named. -/
def resolveTwo (numbers : Numbers) (first second : Int) : Parts :=
  match numbers.monthAt with
  | some place =>
      let (month, other) := if place = 0 then (first, second) else (second, first)
      if 31 < other then { year := some other, month := some month }
      else { month := some month, day := some other }
  | none =>
      if 31 < first then { year := some first, month := some second }
      else if 31 < second then { month := some first, year := some second }
      else if second ≤ 12 then { day := some first, month := some second }
      else { month := some first, day := some second }

def dayMonthYear (day month year : Int) : Parts :=
  { year := some year, month := some month, day := some day }

def resolveThree (numbers : Numbers) (first second third : Int) : Parts :=
  match numbers.monthAt, numbers.yearAt with
  | some 0, some 1 => dayMonthYear third first second
  | some 0, some _ => dayMonthYear second first third
  | some 1, some 0 => dayMonthYear third second first
  | some 1, some _ => dayMonthYear first second third
  | some _, some 0 => dayMonthYear second third first
  | some _, some _ => dayMonthYear first third second
  | some 0, none =>
      if 31 < second then dayMonthYear third first second else dayMonthYear second first third
  | some 1, none =>
      if 31 < first then dayMonthYear third second first else dayMonthYear first second third
  | some _, none =>
      if 31 < second then dayMonthYear first third second else dayMonthYear second third first
  | none, yearAt =>
      if 31 < first || yearAt = some 0 then
        if third ≤ 12 then dayMonthYear second third first else dayMonthYear third second first
      else if 12 < first || second ≤ 12 then dayMonthYear first second third
      else dayMonthYear second first third

/-- The roles of the numbers; more than three have none. -/
def Numbers.resolve? (numbers : Numbers) : Option Parts :=
  match numbers.values with
  | [] => some {}
  | [only] =>
      match numbers.yearAt, numbers.monthAt with
      | some _, _ => some { year := some only }
      | none, some _ => some { month := some only }
      | none, none => some (if 31 < only then { year := some only } else { day := some only })
  | [first, second] =>
      match numbers.yearAt, numbers.monthAt with
      | some 0, some _ => some { year := some first, month := some second }
      | some _, some _ => some { month := some first, year := some second }
      | _, _ => some (resolveTwo numbers first second)
  | [first, second, third] => some (resolveThree numbers first second third)
  | _ => none

structure Reading where
  numbers : Numbers := {}
  weekday : Option Nat := none
  hour : Option Int := none
  minute : Option Int := none
  second : Option Int := none
  zone : Option Text := none
  offset : Option Int := none

def decimal? (token : Text) : Option Decimal := Decimal.ofNumeral? (Text.normalizeDigits token)

def integer? (token : Text) : Option Int := (readInteger token).toOption

/-- The whole seconds of a token with an optional fraction. -/
def seconds? (token : Text) : Option Int :=
  match Text.splitAt '.' token with
  | [whole] => integer? whole
  | [whole, fraction] => do
      let seconds ← integer? whole
      let _ ← integer? ((fraction ++ List.replicate (6 - fraction.length) '0').take 6)
      some seconds
  | _ => none

/-- Hour of the day from the hour on a twelve-hour clock. -/
def onClock (half : Nat) (hour : Int) : Int :=
  if hour < 12 && half = 1 then hour + 12
  else if hour = 12 && half = 0 then 0
  else hour

def Reading.withMinutes (reading : Reading) (number : Decimal) : Reading :=
  { reading with
    minute := some (wholePart number)
    second := if hasFraction number then some (sixtieths number) else none }

/-- The unit of time that belongs to the number at a place: its own place and the unit.  A
unit after the number comes first; one before it means the next smaller unit. -/
def unitFor? (tokens : List Text) (place : Nat) : Option (Nat × Nat) :=
  let unitAt? (at_ : Nat) : Option Nat := tokens[at_]?.bind DateToken.timeUnit?
  let isSpaceAt (at_ : Nat) : Bool := tokens[at_]? == some [' ']
  match unitAt? (place + 1) with
  | some unit => some (place + 1, unit)
  | none =>
      match (if isSpaceAt (place + 1) then unitAt? (place + 2) else none) with
      | some unit => some (place + 2, unit)
      | none =>
          match (if 0 < place then unitAt? (place - 1) else none) with
          | some unit => some (place, unit + 1)
          | none =>
              if 1 < place && place + 1 = tokens.length && isSpaceAt (place - 1) then
                (unitAt? (place - 2)).map fun unit => (place, unit + 1)
              else none

/-- Gives a number its unit of time; units below seconds are ignored. -/
def Reading.withUnit? (reading : Reading) (token : Text) (number : Decimal) (unit : Nat) :
    Option Reading :=
  match unit with
  | 0 => some { reading with
      hour := some (wholePart number)
      minute := if hasFraction number then some (sixtieths number) else reading.minute }
  | 1 => some (reading.withMinutes number)
  | 2 => (seconds? token).map fun seconds => { reading with second := some seconds }
  | _ => some reading

/-- Numbers joined by a separator: the second may be a month's name, the third too. -/
def Reading.joined? (reading : Reading) (tokens : List Text) (place : Nat) (token separator : Text) :
    Option (Reading × Nat) := do
  let numbers ← reading.numbers.addDigits? token none
  match tokens[place + 2]? with
  | none => some ({ reading with numbers }, place + 1)
  | some second =>
      if DateToken.isFiller second then some ({ reading with numbers }, place + 1)
      else
        let numbers ←
          if second.all isDigit then numbers.addDigits? second none
          else (DateToken.month? second).bind numbers.addMonth?
        if tokens[place + 3]? = some separator then
          let third ← tokens[place + 4]?
          let numbers ← match DateToken.month? third with
            | some month => numbers.addMonth? month
            | none => numbers.addDigits? third none
          some ({ reading with numbers }, place + 4)
        else some ({ reading with numbers }, place + 2)

/-- A number of six or more places: a date, or a time after a date. -/
def Reading.sixPlaces? (reading : Reading) (token : Text) : Option Reading := do
  if reading.numbers.values.isEmpty && !token.contains '.' then
    let numbers ← reading.numbers.addDigits? (Text.slice 0 2 token) none
    let numbers ← numbers.addDigits? (Text.slice 2 4 token) none
    let numbers ← numbers.addDigits? (token.drop 4) none
    some { reading with numbers }
  else
    let hour ← integer? (Text.slice 0 2 token)
    let minute ← integer? (Text.slice 2 4 token)
    let second ← seconds? (token.drop 4)
    some { reading with hour := some hour, minute := some minute, second := some second }

/-- A date of eight places, with an optional time behind it. -/
def Reading.eightPlaces? (reading : Reading) (token : Text) : Option Reading := do
  let numbers ← reading.numbers.addDigits? (Text.slice 0 4 token) (some .year)
  let numbers ← numbers.addDigits? (Text.slice 4 6 token) none
  let numbers ← numbers.addDigits? (Text.slice 6 8 token) none
  let reading := { reading with numbers }
  if token.length = 8 then some reading
  else
    let hour ← integer? (Text.slice 8 10 token)
    let minute ← integer? (Text.slice 10 12 token)
    let reading := { reading with hour := some hour, minute := some minute }
    if token.length = 12 then some reading
    else
      let second ← integer? (token.drop 12)
      some { reading with second := some second }

/-- Reads the number at a place; also gives the place of the last token it used. -/
def Reading.number? (reading : Reading) (tokens : List Text) (place : Nat) (token : Text)
    (number : Decimal) : Option (Reading × Nat) :=
  let size := token.length
  let next := tokens[place + 1]?
  let isColon (token : Option Text) : Bool := token == some [':']
  if reading.numbers.values.length = 3 && (size = 2 || size = 4) && reading.hour.isNone &&
      !isColon next && (next.bind DateToken.timeUnit?).isNone then do
    let hour ← integer? (token.take 2)
    let minute ← if size = 4 then (integer? (token.drop 2)).map some else some reading.minute
    some ({ reading with hour := some hour, minute := minute }, place)
  else if size = 6 || (6 < size && token.idxOf? '.' = some 6) then
    (reading.sixPlaces? token).map (·, place)
  else if size = 8 || size = 12 || size = 14 then
    (reading.eightPlaces? token).map (·, place)
  else match unitFor? tokens place with
  | some (used, unit) => (reading.withUnit? token number unit).map (·, used)
  | none =>
  if isColon next && (tokens[place + 2]?).isSome then do
    let minutes ← (tokens[place + 2]?).bind decimal?
    let reading := { reading.withMinutes minutes with hour := some (wholePart number) }
    if isColon tokens[place + 3]? && (tokens[place + 4]?).isSome then
      let second ← (tokens[place + 4]?).bind seconds?
      some ({ reading with second := some second }, place + 4)
    else some (reading, place + 2)
  else if next = some ['-'] || next = some ['/'] || next = some ['.'] then
    reading.joined? tokens place token (next.getD [])
  else if next.all DateToken.isFiller then
    match tokens[place + 2]?.bind DateToken.halfOfDay? with
    | some half =>
        some ({ reading with hour := some (onClock half (wholePart number)) }, place + 2)
    | none => (reading.numbers.addDecimal? number).map fun numbers =>
        ({ reading with numbers }, place + 1)
  else match next.bind DateToken.halfOfDay? with
  | some half =>
      if wholePart number < 24 then
        some ({ reading with hour := some (onClock half (wholePart number)) }, place + 1)
      else if reading.numbers.admitsDay number then
        (reading.numbers.addDecimal? number).map fun numbers => ({ reading with numbers }, place)
      else none
  | none =>
      if reading.numbers.admitsDay number then
        (reading.numbers.addDecimal? number).map fun numbers => ({ reading with numbers }, place)
      else none

/-- Two-digit years, unless a year was written out, lie within fifty years of `today`. -/
def widenYear (today : Date) (fullYear : Bool) (year : Int) : Int :=
  if 100 ≤ year || fullYear then year
  else
    let thisYear : Int := today.year
    let widened := year + (thisYear / 100) * 100
    if thisYear + 50 ≤ widened then widened - 100
    else if widened < thisYear - 50 then widened + 100
    else widened

def Reading.month? (today : Date) (reading : Reading) (tokens : List Text) (place : Nat)
    (month : Nat) : Option (Reading × Nat) := do
  let numbers ← reading.numbers.addMonth? month
  match tokens[place + 1]? with
  | none => some ({ reading with numbers }, place)
  | some next =>
      if next = "-" || next = "/" then
        let second ← tokens[place + 2]?
        let numbers ← numbers.addDigits? second none
        if tokens[place + 3]? = some next then
          let third ← tokens[place + 4]?
          let numbers ← numbers.addDigits? third none
          some ({ reading with numbers }, place + 4)
        else some ({ reading with numbers }, place + 2)
      else if next = " " && tokens[place + 3]? = some [' '] &&
          (tokens[place + 2]?.map Text.lower) = some "of" && (tokens[place + 4]?).isSome then
        let last := tokens.getD (place + 4) []
        if last.all isDigit then
          let year ← integer? last
          let numbers ← numbers.addDigits? (Text.ofInt (widenYear today false year)) (some .year)
          some ({ reading with numbers }, place + 4)
        else some ({ reading with numbers }, place + 4)
      else some ({ reading with numbers }, place)

/-- Reads a signed offset from universal time and an optional zone name in brackets. -/
def Reading.offset? (reading : Reading) (tokens : List Text) (place : Nat) (sign : Int) :
    Option (Reading × Nat) := do
  let digits ← tokens[place + 1]?
  let (hours, minutes, place) ←
    if digits.length = 4 then do
      let hours ← integer? (digits.take 2)
      let minutes ← integer? (digits.drop 2)
      some (hours, minutes, place)
    else if tokens[place + 2]? = some [':'] then do
      let hours ← integer? digits
      let minutes ← (tokens[place + 3]?).bind integer?
      some (hours, minutes, place + 2)
    else if digits.length ≤ 2 then do
      let hours ← integer? (digits.take 2)
      some (hours, 0, place)
    else none
  let reading := { reading with offset := some (sign * (hours * 3600 + minutes * 60)) }
  let name := tokens.getD (place + 4) []
  if (tokens[place + 2]?).any DateToken.isFiller && tokens[place + 3]? = some ['('] &&
      tokens[place + 5]? = some [')'] && 3 ≤ name.length && reading.hour.isSome &&
      reading.zone.isNone && DateToken.isZoneName name then
    some ({ reading with zone := some name }, place + 5)
  else some (reading, place + 1)

/-- Reads the token at a place; also gives the tokens, one of which may have changed its sign,
and the place of the last token used. -/
def Reading.step? (today : Date) (reading : Reading) (tokens : List Text) (place : Nat)
    (token : Text) : Option (Reading × List Text × Nat) :=
  let keep (result : Option (Reading × Nat)) : Option (Reading × List Text × Nat) :=
    result.map fun (reading, used) => (reading, tokens, used)
  match Binary64.ofText? token with
  | some _ => do
      let number ← decimal? token
      keep (reading.number? tokens place token number)
  | none =>
  match DateToken.weekday? token with
  | some weekday => keep (some ({ reading with weekday := some weekday }, place))
  | none =>
  match DateToken.month? token with
  | some month => keep (reading.month? today tokens place month)
  | none =>
  match DateToken.halfOfDay? token, reading.hour with
  | some _, none => none
  | some half, some hour =>
      if 0 ≤ hour && hour ≤ 12 then
        keep (some ({ reading with hour := some (onClock half hour) }, place))
      else none
  | none, _ =>
  if reading.hour.isSome && reading.zone.isNone && reading.offset.isNone &&
      DateToken.isZoneName token then
    match tokens[place + 1]? with
    | some [sign] =>
        if sign = '+' || sign = '-' then
          let flipped := if sign = '+' then '-' else '+'
          let zone := if DateToken.isUniversalZone token then none else some token
          some ({ reading with zone := zone, offset := none }, tokens.set (place + 1) [flipped], place)
        else keep (some ({ reading with
          zone := some token, offset := if token = "z" then some 0 else none }, place))
    | _ => keep (some ({ reading with
        zone := some token, offset := if token = "z" then some 0 else none }, place))
  else if reading.hour.isSome && (token = "+" || token = "-") then
    keep (reading.offset? tokens place (if token = "+" then 1 else -1))
  else if DateToken.isFiller token then keep (some (reading, place))
  else none

def Reading.run? (today : Date) : Nat → Reading → List Text → Nat → Option Reading
  | 0, reading, _, _ => some reading
  | fuel + 1, reading, tokens, place =>
      match tokens[place]? with
      | none => some reading
      | some token =>
          match reading.step? today tokens place token with
          | none => none
          | some (reading, tokens, used) => reading.run? today fuel tokens (used + 1)

/-- The first day from `date` on that has the given weekday. -/
def onWeekday? (date : Date) (weekday : Nat) : Option Date :=
  date.addDays? (((7 - date.weekday + weekday) % 7 : Nat) : Int)

def inRange (limit : Int) (value : Option Int) : Bool :=
  value.all fun value => 0 ≤ value && value < limit

/-- The most days that a span of time may have. -/
def greatestSpan : Nat := 999999999

/-- Whether the offset from universal time is a span of time.  It does not count beside the name
of universal time itself. -/
def Reading.hasOffsetInRange (reading : Reading) : Bool :=
  reading.zone.any DateToken.isUniversalZone ||
    reading.offset.all fun seconds => (Int.fdiv seconds 86400).natAbs ≤ greatestSpan

/-- The date of a reading, what is missing taken from `today`. -/
def Reading.date? (today : Date) (reading : Reading) : Option Date := do
  let parts ← reading.numbers.resolve?
  let nothing := parts.year.isNone && parts.month.isNone && parts.day.isNone &&
    reading.weekday.isNone && reading.hour.isNone && reading.minute.isNone &&
    reading.second.isNone
  if nothing || !inRange 24 reading.hour || !inRange 60 reading.minute ||
      !inRange 60 reading.second || !reading.hasOffsetInRange then none
  let year := (parts.year.map (widenYear today reading.numbers.fullYear)).getD today.year
  let month := parts.month.getD today.month
  let day := parts.day.getD (min today.day (monthLength year.toNat month.toNat) : Nat)
  let date ← Date.ofIntParts? year month day
  match reading.weekday, parts.day with
  | some weekday, none => onWeekday? date weekday
  | _, _ => some date

def read? (today : Date) (text : Text) : Option Date := do
  let tokens := DateToken.ofText text
  let reading ← Reading.run? today tokens.length {} tokens 0
  reading.date? today

end Covenant.WrittenDate
