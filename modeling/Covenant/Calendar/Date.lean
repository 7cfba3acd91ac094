import Covenant.Text.Basic

/-!
# Dates

Dates of the Gregorian calendar from the year 1 to the year 9999.  A date knows
the number of days since the start of the calendar, its weekday, and how many
whole months lie between it and another date; adding months keeps the day of the
month where the target month has it and otherwise takes that month's last day.
-/

namespace Covenant

def isLeapYear (year : Nat) : Bool :=
  year % 4 == 0 && (year % 100 != 0 || year % 400 == 0)

/-- The number of days of a month from 1 to 12; zero for any other number. -/
def monthLength (year month : Nat) : Nat :=
  match month with
  | 1 | 3 | 5 | 7 | 8 | 10 | 12 => 31
  | 4 | 6 | 9 | 11 => 30
  | 2 => if isLeapYear year then 29 else 28
  | _ => 0

def isDate (year month day : Nat) : Bool :=
  1 ≤ year && year ≤ 9999 && 1 ≤ day && day ≤ monthLength year month

structure Date where
  year : Nat
  month : Nat
  day : Nat
  exists_ : isDate year month day = true := by decide
deriving DecidableEq

namespace Date

def ofParts? (year month day : Nat) : Option Date :=
  if valid : isDate year month day = true then some ⟨year, month, day, valid⟩ else none

def ofIntParts? (year month day : Int) : Option Date :=
  if year < 0 || month < 0 || day < 0 then none
  else ofParts? year.toNat month.toNat day.toNat

instance : Inhabited Date := ⟨{ year := 1, month := 1, day := 1 }⟩

def rank (date : Date) : Nat := (date.year * 12 + date.month) * 32 + date.day

def isBefore (first second : Date) : Bool := first.rank < second.rank

def daysBeforeMonth (year : Nat) : Nat → Nat
  | 0 | 1 => 0
  | month + 1 => daysBeforeMonth year month + monthLength year month

def daysBeforeYear (year : Nat) : Nat :=
  let past := year - 1
  365 * past + past / 4 - past / 100 + past / 400

def dayOfYear (date : Date) : Nat := daysBeforeMonth date.year date.month + date.day

/-- The number of the day, counted from 1 for the first day of the calendar. -/
def dayNumber (date : Date) : Nat := daysBeforeYear date.year + date.dayOfYear

/-- The day of the week, counted from 0 for Monday. -/
def weekday (date : Date) : Nat := (date.dayNumber + 6) % 7

/-- The month and day of a year's day, counted from 0; `months` more months are tried. -/
def monthAndDay (year : Nat) : Nat → Nat → Nat → Nat × Nat
  | 0, month, rest => (month, rest + 1)
  | months + 1, month, rest =>
      if rest < monthLength year month then (month, rest + 1)
      else monthAndDay year months (month + 1) (rest - monthLength year month)

def ofDayNumber? (number : Nat) : Option Date :=
  if number = 0 then none
  else
    let cycles := (number - 1) / 146097
    let rest := (number - 1) % 146097
    let centuries := min 3 (rest / 36524)
    let rest := rest - 36524 * centuries
    let fours := rest / 1461
    let rest := rest % 1461
    let years := min 3 (rest / 365)
    let rest := rest - 365 * years
    let year := 400 * cycles + 100 * centuries + 4 * fours + years + 1
    let (month, day) := monthAndDay year 12 1 rest
    ofParts? year month day

def addDays? (date : Date) (days : Int) : Option Date :=
  let number := (date.dayNumber : Int) + days
  if number < 1 then none else ofDayNumber? number.toNat

/-- The number of whole months from `start` to `reference`.  For a start in the future it
is the least number, zero or negative, of months that leads to `reference` or beyond. -/
def monthsFrom (start reference : Date) : Int :=
  let months := ((reference.year : Int) - start.year) * 12 + ((reference.month : Int) - start.month)
  let reached := min start.day (monthLength reference.year reference.month)
  if reference.isBefore start then
    if reached < reference.day then months + 1 else months
  else
    if reference.day < reached then months - 1 else months

/-- The number of whole years from `start` to `reference`, truncated toward zero. -/
def yearsFrom (start reference : Date) : Int := (start.monthsFrom reference).tdiv 12

def toIso (date : Date) : Text :=
  Text.ofNatPadded 4 date.year ++ '-' :: Text.ofNatPadded 2 date.month ++
    '-' :: Text.ofNatPadded 2 date.day

end Date

end Covenant
